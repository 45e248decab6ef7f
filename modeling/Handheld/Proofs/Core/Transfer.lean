import Handheld.Proofs.Arithmetic.Binary
import Handheld.Proofs.Core.Stack

/-!
# Jumps, calls and returns

A transfer of control changes the program counter, and a call or a return the stack besides:
`Core.jumped`, `Core.called` and `Core.returned` are the cores afterwards.  A conditional transfer
happens if the flags meet the condition in its opcode (`Flags.meets`), and is an instruction without
effect otherwise (`Core.step_when`).

The main statement is `Core.transfer_step`, about a step with any of these instructions.  In its
last part a return takes back the call before it.
-/

namespace Handheld

/-! ### Conditions -/

/-- Whether the flags meet the condition in an opcode: bit 4 selects the zero flag or the carry
flag, and bit 3 is the value that it has to have. -/
def Flags.meets (f : Flags) (opcode : UInt8) : Bool :=
  (if Byte.bit opcode 4 then f.carry else f.zero) == Byte.bit opcode 3

/-- The conditions are numbered in this way. -/
lemma Core.satisfies_ofField {μ : Type} (s : Core μ) (opcode : UInt8) :
    s.satisfies (.ofField (opcode.toNat / 8)) = s.cpu.regs.f.meets opcode := by
  have hthree : Byte.bit opcode 3 = decide (opcode.toNat / 8 % 2 = 1) :=
    Nat.testBit_eq_decide_div_mod_eq
  have hfour : Byte.bit opcode 4 = decide (opcode.toNat / 16 % 2 = 1) :=
    Nat.testBit_eq_decide_div_mod_eq
  have hhalf : opcode.toNat / 16 % 2 = opcode.toNat / 8 % 4 / 2 := by omega
  have hlow : opcode.toNat / 8 % 2 = opcode.toNat / 8 % 4 % 2 := by omega
  rw [Flags.meets, hthree, hfour, hhalf, hlow]
  rcases (by omega : opcode.toNat / 8 % 4 = 0 ∨ opcode.toNat / 8 % 4 = 1 ∨
    opcode.toNat / 8 % 4 = 2 ∨ opcode.toNat / 8 % 4 = 3) with h | h | h | h
  all_goals
    rw [Condition.ofField, h]
    simp [Core.satisfies]

/-- A condition in an opcode is a condition. -/
lemma Condition.ofField_ne_always (n : Nat) : ofField n ≠ .always := by
  unfold ofField
  split
  all_goals exact Condition.noConfusion

namespace Core

variable {s : Core FlatMemory} {i : Instruction} {cond : Condition}

/-! ### Transfers -/

/-- The core after a jump. -/
def jumped (s : Core FlatMemory) (target : UInt16) : Core FlatMemory :=
  s.after { s.cpu.regs with pc := target } s.memory

/-- The core after a call. -/
def called (s : Core FlatMemory) (back target : UInt16) : Core FlatMemory :=
  s.after { s.cpu.regs with pc := target, sp := s.cpu.regs.sp - 2 }
    (s.memory.pushed s.cpu.regs.sp back)

/-- The core after a return. -/
def returned (s : Core FlatMemory) : Core FlatMemory :=
  s.after { s.cpu.regs with pc := s.memory.word s.cpu.regs.sp, sp := s.cpu.regs.sp + 2 } s.memory

/-- A conditional act happens if its condition holds, and costs what it costs then. -/
theorem step_when (act : Core FlatMemory → Core FlatMemory) {t : Core FlatMemory}
    (h : s.instruction? = some i) (hi : i ≠ .extended)
    (hexecute : (s.past i.operand).execute i (s.immediate i.operand) =
      (s.past i.operand).when cond act)
    (hact : (act (s.past i.operand)).retireDelay = t) :
    s.step = if s.satisfies cond then (i.takenCycles, t)
      else (i.cycles, s.jumped (s.cpu.regs.pc + UInt16.ofNat (1 + i.operand.length))) := by
  have hcond : (s.past i.operand).satisfies cond = s.satisfies cond := by
    cases cond <;> rfl
  rw [step_of_instruction h hi, hexecute, when, hcond]
  by_cases hholds : s.satisfies cond = true
  · rw [if_pos hholds, if_pos hholds, ← hact]
    rfl
  · rw [if_neg hholds, if_neg hholds]
    exact congrArg (Prod.mk _) (s.retireDelay_eq_after _ _)

/-- A jump by the signed operand, counted from the next instruction. -/
lemma step_jumpRelative (h : s.instruction? = some (.jumpRelative cond)) :
    s.step = if s.satisfies cond then
        (12, s.jumped (s.cpu.regs.pc + 2 + Word.ofSigned (s.memory.cells (s.cpu.regs.pc + 1))))
      else ((Instruction.jumpRelative cond).cycles, s.jumped (s.cpu.regs.pc + 2)) := by
  refine step_when (fun t => t.jumpTo (t.cpu.regs.pc + Word.ofSigned (Word.low (s.immediate .byte))))
    h Instruction.noConfusion rfl ?_
  rw [← Word.low_toUInt16 (s.memory.cells (s.cpu.regs.pc + 1))]
  exact s.retireDelay_eq_after _ _

/-- A jump to the operand. -/
lemma step_jump (h : s.instruction? = some (.jump cond)) :
    s.step = if s.satisfies cond then (16, s.jumped (s.immediate .word))
      else ((Instruction.jump cond).cycles, s.jumped (s.cpu.regs.pc + 3)) :=
  step_when (·.jumpTo (s.immediate .word)) h Instruction.noConfusion rfl
    (s.retireDelay_eq_after _ _)

/-- A call pushes the address of the next instruction. -/
lemma retireDelay_callTo (s : Core FlatMemory) (o : Operand) (target : UInt16) :
    ((s.past o).callTo target).retireDelay =
      s.called (s.cpu.regs.pc + UInt16.ofNat (1 + o.length)) target := by
  rw [callTo, push_flat]
  exact s.retireDelay_eq_after _ _

/-- A return pops an address. -/
lemma retireDelay_ret (s : Core FlatMemory) (o : Operand) :
    (s.past o).ret.retireDelay = s.returned := by
  rw [ret, pop_flat]
  exact s.retireDelay_eq_after _ _

/-- A call of the operand. -/
lemma step_call (h : s.instruction? = some (.call cond)) :
    s.step = if s.satisfies cond then (24, s.called (s.cpu.regs.pc + 3) (s.immediate .word))
      else ((Instruction.call cond).cycles, s.jumped (s.cpu.regs.pc + 3)) :=
  step_when (·.callTo (s.immediate .word)) h Instruction.noConfusion rfl (s.retireDelay_callTo _ _)

/-- A return. -/
lemma step_ret (h : s.instruction? = some (.ret cond)) :
    s.step = if s.satisfies cond then ((Instruction.ret cond).takenCycles, s.returned)
      else ((Instruction.ret cond).cycles, s.jumped (s.cpu.regs.pc + 1)) :=
  step_when ret h Instruction.noConfusion rfl (s.retireDelay_ret _)

/-- A call of a fixed address. -/
lemma step_restart {target : UInt8} (h : s.instruction? = some (.restart target)) :
    s.step = (16, s.called (s.cpu.regs.pc + 1) target.toUInt16) := by
  rw [step_of_instruction h Instruction.noConfusion]
  exact congrArg (Prod.mk _) (s.retireDelay_callTo _ _)

/-- A jump to HL. -/
lemma step_jumpHl (h : s.instruction? = some .jumpHl) : s.step = (4, s.jumped s.cpu.regs.hl) := by
  rw [step_of_instruction h Instruction.noConfusion]
  exact congrArg (Prod.mk _) (s.retireDelay_eq_after _ _)

/-- A return that sets the master enable flag; a change that is due then is a change of this. -/
lemma step_reti (h : s.instruction? = some .reti) :
    s.step = (16, returned ⟨{ s.cpu with ime := true }, s.memory⟩) := by
  rw [step_of_instruction h Instruction.noConfusion]
  refine congrArg (Prod.mk _) ?_
  have hret := retireDelay_ret ⟨{ s.cpu with ime := true }, s.memory⟩ .none
  rw [← hret]
  rfl

/-- A return takes back a call of an address where it is, if the push has not overwritten it. -/
lemma step_called {back target : UInt16} (hs : s.cpu.activity = .running)
    (hret : s.memory.cells target = 0xC9) (hhigh : target ≠ s.cpu.regs.sp - 1)
    (hlow : target ≠ s.cpu.regs.sp - 2) :
    (s.called back target).step =
      (16, (s.called back target).after { s.cpu.regs with pc := back }
        (s.memory.pushed s.cpu.regs.sp back)) := by
  let t := s.called back target
  have hopcode : t.memory.cells t.cpu.regs.pc = 0xC9 :=
    (s.memory.cells_pushed_of_ne _ _ hhigh hlow).trans hret
  have hrunning : t.cpu.activity = .running := (activity_after ..).trans hs
  have hi : t.instruction? = some (.ret .always) := by
    rw [instruction_of_running hrunning, hopcode]
    rfl
  have hword : t.memory.word t.cpu.regs.sp = back := s.memory.word_pushed _ _
  have hsp : t.cpu.regs.sp + 2 = s.cpu.regs.sp := by
    change s.cpu.regs.sp - 2 + 2 = s.cpu.regs.sp
    grind
  refine (step_ret hi).trans ?_
  rw [returned, hword, hsp]
  rfl

end Core

/-! ### Opcodes -/

namespace Instruction

lemma decode_jumpRelative : ∀ opcode ∈ [0x20, 0x28, 0x30, 0x38],
    decode opcode = .jumpRelative (.ofField (opcode.toNat / 8)) :=
  List.forall_iff_forall_mem.mp (by decide)

lemma decode_jump : ∀ opcode ∈ [0xC2, 0xCA, 0xD2, 0xDA],
    decode opcode = .jump (.ofField (opcode.toNat / 8)) :=
  List.forall_iff_forall_mem.mp (by decide)

lemma decode_call : ∀ opcode ∈ [0xC4, 0xCC, 0xD4, 0xDC],
    decode opcode = .call (.ofField (opcode.toNat / 8)) :=
  List.forall_iff_forall_mem.mp (by decide)

lemma decode_ret : ∀ opcode ∈ [0xC0, 0xC8, 0xD0, 0xD8],
    decode opcode = .ret (.ofField (opcode.toNat / 8)) :=
  List.forall_iff_forall_mem.mp (by decide)

lemma decode_restart : ∀ opcode ∈ [0xC7, 0xCF, 0xD7, 0xDF, 0xE7, 0xEF, 0xF7, 0xFF],
    decode opcode = .restart (opcode &&& 0x38) :=
  List.forall_iff_forall_mem.mp (by decide)

end Instruction

/-! ### Steps -/

namespace Core

variable {s : Core FlatMemory}

/-- The instruction at the program counter is a call that is made: the address of the next
instruction, and where the call goes. -/
inductive Calls (s : Core FlatMemory) : UInt16 → UInt16 → Prop
  | call (h : s.memory.cells s.cpu.regs.pc = 0xCD) :
    s.Calls (s.cpu.regs.pc + 3) (s.immediate .word)
  | callIf (h : s.memory.cells s.cpu.regs.pc ∈ [0xC4, 0xCC, 0xD4, 0xDC])
      (hholds : s.cpu.regs.f.meets (s.memory.cells s.cpu.regs.pc) = true) :
    s.Calls (s.cpu.regs.pc + 3) (s.immediate .word)
  | restart
      (h : s.memory.cells s.cpu.regs.pc ∈ [0xC7, 0xCF, 0xD7, 0xDF, 0xE7, 0xEF, 0xF7, 0xFF]) :
    s.Calls (s.cpu.regs.pc + 1) (s.memory.cells s.cpu.regs.pc &&& 0x38).toUInt16

/-- A step with a call that is made goes to its target, with the address of the next instruction on
the stack. -/
lemma Calls.step {back target : UInt16} (h : s.Calls back target) (hs : s.cpu.activity = .running) :
    s.step.2 = s.called back target := by
  have hi := instruction_of_running hs
  cases h with
  | call h =>
    rw [h] at hi
    exact congrArg Prod.snd (step_call hi)
  | callIf h hholds =>
    rw [Instruction.decode_call _ h] at hi
    rw [step_call hi, satisfies_ofField, if_pos hholds]
  | restart h =>
    rw [Instruction.decode_restart _ h] at hi
    rw [step_restart hi]

/-- The target of a jump by a signed operand, as a number. -/
lemma toNat_target (pc : UInt16) (e : UInt8) :
    ((pc + 2 + Word.ofSigned e).toNat : Int) = (pc.toNat + 2 + e.toInt8.toInt) % 65536 := by
  have hsum : ((pc + 2 + Word.ofSigned e).toNat : Int) = _ := Alu.toNat_addSigned (pc + 2) e
  rw [hsum, UInt16.toNat_add]
  have htwo : (2 : UInt16).toNat = 2 := rfl
  omega

/-- A step of a running processor with a jump, a call or a return.  A conditional one happens if the
flags meet the condition in its opcode, and otherwise only the program counter passes it.  A return
to which a call goes takes the call back, if the call has not overwritten it. -/
theorem transfer_step (hs : s.cpu.activity = .running) :
    let pc := s.cpu.regs.pc
    let opcode := s.memory.cells pc
    let e := s.memory.cells (pc + 1)
    let nn := Word.join (s.memory.cells (pc + 2)) (s.memory.cells (pc + 1))
    let holds := s.cpu.regs.f.meets opcode
    (∃ target : UInt16, (target.toNat : Int) = (pc.toNat + 2 + e.toInt8.toInt) % 65536 ∧
      (opcode = 0x18 → s.step = (12, s.jumped target)) ∧
      (opcode ∈ [0x20, 0x28, 0x30, 0x38] →
        s.step = if holds then (12, s.jumped target) else (8, s.jumped (pc + 2)))) ∧
    (opcode = 0xC3 → s.step = (16, s.jumped nn)) ∧
    (opcode ∈ [0xC2, 0xCA, 0xD2, 0xDA] →
      s.step = if holds then (16, s.jumped nn) else (12, s.jumped (pc + 3))) ∧
    (opcode = 0xE9 → s.step = (4, s.jumped s.cpu.regs.hl)) ∧
    (opcode = 0xCD → s.step = (24, s.called (pc + 3) nn)) ∧
    (opcode ∈ [0xC4, 0xCC, 0xD4, 0xDC] →
      s.step = if holds then (24, s.called (pc + 3) nn) else (12, s.jumped (pc + 3))) ∧
    (opcode ∈ [0xC7, 0xCF, 0xD7, 0xDF, 0xE7, 0xEF, 0xF7, 0xFF] →
      s.step = (16, s.called (pc + 1) (opcode &&& 0x38).toUInt16)) ∧
    (opcode = 0xC9 → s.step = (16, s.returned)) ∧
    (opcode ∈ [0xC0, 0xC8, 0xD0, 0xD8] →
      s.step = if holds then (20, s.returned) else (8, s.jumped (pc + 1))) ∧
    (opcode = 0xD9 → s.step = (16, returned ⟨{ s.cpu with ime := true }, s.memory⟩) ∧
      (s.cpu.delay = .idle → s.step.2.cpu.ime = true)) ∧
    ∀ back target, s.Calls back target → s.memory.cells target = 0xC9 →
      target ≠ s.cpu.regs.sp - 1 → target ≠ s.cpu.regs.sp - 2 →
      s.step.2.step = (16, s.step.2.after { s.cpu.regs with pc := back }
        (s.memory.pushed s.cpu.regs.sp back)) := by
  intro pc opcode e nn holds
  have hi : ∀ {i}, Instruction.decode opcode = i → s.instruction? = some i :=
    fun h => (instruction_of_running hs).trans (congrArg some h)
  have hcycles : ∀ {n m : UInt32},
      (if Condition.ofField (opcode.toNat / 8) = .always then n else m) = m :=
    if_neg (Condition.ofField_ne_always _)
  refine ⟨⟨_, toNat_target pc e, fun h => ?_, fun h => ?_⟩, fun h => ?_, fun h => ?_, fun h => ?_,
    fun h => ?_, fun h => ?_, fun h => ?_, fun h => ?_, fun h => ?_, fun h => ⟨?_, fun hidle => ?_⟩,
    fun back target hcall hret hhigh hlow => ?_⟩
  · exact step_jumpRelative (hi (congrArg Instruction.decode h))
  · rw [step_jumpRelative (hi (Instruction.decode_jumpRelative _ h)), satisfies_ofField,
      Instruction.cycles, hcycles]
  · exact step_jump (hi (congrArg Instruction.decode h))
  · rw [step_jump (hi (Instruction.decode_jump _ h)), satisfies_ofField, Instruction.cycles, hcycles]
    rfl
  · exact step_jumpHl (hi (congrArg Instruction.decode h))
  · exact step_call (hi (congrArg Instruction.decode h))
  · rw [step_call (hi (Instruction.decode_call _ h)), satisfies_ofField, Instruction.cycles, hcycles]
    rfl
  · exact step_restart (hi (Instruction.decode_restart _ h))
  · exact step_ret (hi (congrArg Instruction.decode h))
  · rw [step_ret (hi (Instruction.decode_ret _ h)), satisfies_ofField, Instruction.cycles,
      Instruction.takenCycles, hcycles, hcycles]
  · exact step_reti (hi (congrArg Instruction.decode h))
  · rw [step_reti (hi (congrArg Instruction.decode h))]
    simp [returned, after, Processor.retireDelay, hidle]
  · rw [hcall.step hs]
    exact step_called hs hret hhigh hlow

/-- A processor with the carry flag set, in front of an instruction of three bytes with the operand
`0x01F0`; all other bytes are returns. -/
def transferring (opcode : UInt8) : Core FlatMemory :=
  ⟨{ regs := { f := { carry := true }, h := 0xC1, sp := 1, pc := 0x0200 } },
    { cells := fun a =>
        if a = 0x0200 then opcode else if a = 0x0201 then 0xF0 else if a = 0x0202 then 0x01
        else 0xC9 }⟩

/-- What `transfer_step` says about this processor: a jump backwards, a condition that does not hold
and one that does, and a call of a fixed address; the latter two come back to the next instruction,
also with the stack around the lower end of the address space. -/
theorem transfer_step_around :
    (∀ opcode, (transferring opcode).cpu.activity = .running) ∧
    (transferring 0x18).step = (12, (transferring 0x18).jumped 0x01F2) ∧
    (transferring 0x30).step = (8, (transferring 0x30).jumped 0x0202) ∧
    (transferring 0xDC).step = (24, (transferring 0xDC).called 0x0203 0x01F0) ∧
    (transferring 0xDC).step.2.step.2.cpu.regs = { (transferring 0xDC).cpu.regs with pc := 0x0203 } ∧
    (transferring 0xEF).step = (16, (transferring 0xEF).called 0x0201 0x0028) ∧
    (transferring 0xEF).step.2.step.2.cpu.regs =
      { (transferring 0xEF).cpu.regs with pc := 0x0201 } := by
  have hrunning : ∀ opcode, (transferring opcode).cpu.activity = .running := fun _ => rfl
  obtain ⟨⟨target, htarget, hjump, -⟩, -⟩ := transfer_step (hrunning 0x18)
  obtain rfl : target = 0x01F2 := UInt16.toNat_inj.mp (Int.ofNat_inj.mp htarget)
  obtain ⟨⟨other, -, -, hnot⟩, -⟩ := transfer_step (hrunning 0x30)
  obtain ⟨-, -, -, -, -, hcall, -, -, -, -, hback⟩ := transfer_step (hrunning 0xDC)
  obtain ⟨-, -, -, -, -, -, hrestart, -, -, -, hreturn⟩ := transfer_step (hrunning 0xEF)
  have hcalls : (transferring 0xDC).Calls 0x0203 0x01F0 := .callIf (by decide) rfl
  have hrestarts : (transferring 0xEF).Calls 0x0201 0x0028 := .restart (by decide)
  exact ⟨hrunning, hjump rfl, hnot (by decide), hcall (by decide),
    congrArg (·.2.cpu.regs) (hback _ _ hcalls rfl (by decide) (by decide)), hrestart (by decide),
    congrArg (·.2.cpu.regs) (hreturn _ _ hrestarts rfl (by decide) (by decide))⟩

end Core

end Handheld
