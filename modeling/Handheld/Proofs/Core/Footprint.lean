import Handheld.Proofs.Core.MacroStep
import Handheld.Proofs.Core.Opcodes
import Handheld.Proofs.Core.Transfer

/-!
# What an instruction touches

A `Footprint` says what an instruction may touch besides the registers from A to L: the place in
memory that it writes to, as a `Site`, the flags, the stack pointer, and the program counter, if
this does not go on to the next instruction.  `Instruction.footprint` is the footprint of an
instruction, and `Opcode.footprint` is the same by the opcodes.  A conditional instruction whose
condition does not hold touches nothing, so the footprint of a step, `Core.footprint`, depends on
the flags besides.

Where a step writes is seen in the list of a `Logged` memory, `Core.log`.  So the main statement,
`Core.step_frame`, counts a write also if it puts back what was there before.
-/

namespace Handheld

/-- A place in memory that instructions write to. -/
inductive Site
  | nowhere
  | atBc
  | atDe
  | atHl
  /-- In the last page, where the operand says. -/
  | pageOperand
  /-- In the last page, where C says. -/
  | pageC
  | atOperand
  /-- At the operand and behind. -/
  | wordAtOperand
  /-- A word below the stack pointer. -/
  | belowSp
  deriving DecidableEq

/-- The addresses of a site, in the order in which they are written to. -/
def Site.addresses (x : Site) (r : Registers) (operand : UInt16) : List UInt16 :=
  match x with
  | nowhere => []
  | atBc => [r.bc]
  | atDe => [r.de]
  | atHl => [r.hl]
  | pageOperand => [0xFF00 + (Word.low operand).toUInt16]
  | pageC => [0xFF00 + r.c.toUInt16]
  | atOperand => [operand]
  | wordAtOperand => [operand, operand + 1]
  | belowSp => [r.sp - 1, r.sp - 2]

/-- What an instruction touches besides the registers from A to L. -/
structure Footprint where
  site : Site := .nowhere
  flags : Bool := false
  sp : Bool := false
  /-- The program counter does not go on to the next instruction. -/
  jumps : Bool := false
  deriving DecidableEq

/-! ### Instructions -/

/-- The place that a byte is put into. -/
def Place.site : Place → Site
  | atHl => .atHl
  | _ => .nowhere

/-- The cell that a pointer stands for. -/
def Pointer.site : Pointer → Site
  | bc => .atBc
  | de => .atDe
  | hlIncrement | hlDecrement => .atHl
  | pageOperand => .pageOperand
  | pageC => .pageC
  | operand => .atOperand

/-- The condition of an instruction. -/
def Instruction.condition : Instruction → Condition
  | jumpRelative cond | jump cond | call cond | ret cond => cond
  | _ => .always

/-- What an instruction touches if its condition holds. -/
def Instruction.footprint : Instruction → Footprint
  | storeSp => { site := .wordAtOperand }
  | storeA p => { site := p.site }
  | loadOperand r | load r _ => { site := r.site }
  | inc r | dec r => { site := r.site, flags := true }
  | addHl _ | loadHlSp | rotateA _ | daa | cpl | scf | ccf | alu _ _ | aluOperand _ =>
    { flags := true }
  | addSp => { flags := true, sp := true }
  | loadSpHl => { sp := true }
  | loadPair r | incPair r | decPair r => { sp := r = .sp }
  | jumpRelative _ | jump _ | jumpHl => { jumps := true }
  | call _ | restart _ => { site := .belowSp, sp := true, jumps := true }
  | ret _ | reti => { sp := true, jumps := true }
  | push _ => { site := .belowSp, sp := true }
  | pop r => { flags := r = .af, sp := true }
  | _ => {}

/-- What an extended instruction touches. -/
def ExtendedInstruction.footprint : ExtendedInstruction → Footprint
  | shift _ r => { site := r.site, flags := true }
  | test _ _ => { flags := true }
  | reset _ r | set _ r => { site := r.site }

/-! ### Memory -/

/-- A logged memory is another one, which differs from the memory at the start only in cells that
have been written to. -/
def Logged.Spares (start : FlatMemory) (m : Logged FlatMemory) (n : FlatMemory) : Prop :=
  m.memory = n ∧ n.interrupts = start.interrupts ∧
    ∀ a ∉ m.writes.map Prod.fst, n.cells a = start.cells a

/-- Whatever is read and written, a logged memory differs from the memory at the start only in cells
that have been written to. -/
lemma Logged.phased_spares (start : FlatMemory) :
    Memory.Phased (Logged.Spares start) (Logged.Spares start) where
  read_fst := by
    rintro m _ a ⟨rfl, -⟩
    rfl
  read_snd := by
    rintro m _ a ⟨rfl, h⟩
    exact ⟨rfl, h⟩
  note := by
    rintro m _ d ⟨rfl, h⟩
    exact ⟨rfl, h⟩
  weaken h := h
  write := by
    rintro m _ b v ⟨rfl, hinterrupts, hcells⟩
    refine ⟨rfl, hinterrupts, fun a ha => ?_⟩
    have hlog : (Memory.write m b v).writes.map Prod.fst = m.writes.map Prod.fst ++ [b] :=
      List.map_append
    rw [hlog, List.mem_append, not_or] at ha
    have hne : a ≠ b := fun h => ha.2 (h ▸ List.mem_singleton_self _)
    exact (FlatMemory.cells_set_of_ne _ hne _).trans (hcells a ha.1)
  report := by
    rintro m _ d ⟨rfl, h⟩
    exact ⟨rfl, h⟩

/-- A request to change the master enable flag leaves the registers as they are. -/
lemma Processor.regs_requestIme (p : Processor) (enable : Bool) :
    (p.requestIme enable).regs = p.regs := by
  unfold requestIme
  split
  · rfl
  · rfl

namespace Core

/-! ### Registers -/

section

variable {μ : Type} {s t u : Core μ} {p : Footprint}

/-- Between two cores, what is not in a footprint has not been touched. -/
structure Kept (s t : Core μ) (p : Footprint) : Prop where
  flags : p.flags = false → t.cpu.regs.f = s.cpu.regs.f
  sp : p.sp = false → t.cpu.regs.sp = s.cpu.regs.sp
  pc : p.jumps = false → t.cpu.regs.pc = s.cpu.regs.pc

/-- Nothing has been touched between cores with the same registers. -/
lemma Kept.of_eq (h : t.cpu.regs = s.cpu.regs) : s.Kept t p :=
  ⟨fun _ => h ▸ rfl, fun _ => h ▸ rfl, fun _ => h ▸ rfl⟩

/-- One after the other, two steps touch what one of them touches. -/
lemma Kept.trans (h : s.Kept t p) (h' : t.Kept u p) : s.Kept u p where
  flags hp := (h'.flags hp).trans (h.flags hp)
  sp hp := (h'.sp hp).trans (h.sp hp)
  pc hp := (h'.pc hp).trans (h.pc hp)

/-- Putting a word into a pair touches the stack pointer if this is the pair. -/
lemma kept_setPair (s : Core μ) {r : Pair} (v : UInt16) (h : r = .sp → p.sp = true) :
    s.Kept (s.setPair r v) p := by
  cases r with
  | sp => exact ⟨fun _ => rfl, fun hp => Bool.noConfusion (hp.symm.trans (h rfl)), fun _ => rfl⟩
  | bc | de | hl => exact ⟨fun _ => rfl, fun _ => rfl, fun _ => rfl⟩

/-- Putting a word into a pair of the stack instructions touches the flags if they are part of it.
-/
lemma kept_setStackPair (s : Core μ) {r : StackPair} (v : UInt16)
    (h : r = .af → p.flags = true) : s.Kept (s.setStackPair r v) p := by
  cases r with
  | af => exact ⟨fun hp => Bool.noConfusion (hp.symm.trans (h rfl)), fun _ => rfl, fun _ => rfl⟩
  | bc | de | hl => exact ⟨fun _ => rfl, fun _ => rfl, fun _ => rfl⟩

/-- Having used a pointer touches nothing. -/
lemma kept_advance (s : Core μ) (q : Pointer) : s.Kept (s.advance q) p := by
  cases q <;> exact ⟨fun _ => rfl, fun _ => rfl, fun _ => rfl⟩

/-- A conditional act touches at most what the act touches. -/
lemma kept_when {cond : Condition} {act : Core μ → Core μ} (h : s.Kept (act s) p) :
    s.Kept (s.when cond act).1 p := by
  unfold Core.when
  split
  · exact h
  · exact .of_eq rfl

variable [Memory μ]

/-- Putting a byte into a place touches nothing. -/
lemma kept_store (s : Core μ) (r : Place) (v : UInt8) : s.Kept (s.store r v) p := by
  cases r <;> exact ⟨fun _ => rfl, fun _ => rfl, fun _ => rfl⟩

/-- Looking at the byte in a place touches nothing. -/
lemma kept_load (s : Core μ) (r : Place) : s.Kept (s.load r).2 p :=
  .of_eq (congrArg Processor.regs (cpu_load s r))

/-- Changing a byte in a place together with the flags touches the flags. -/
lemma kept_modify (s : Core μ) (r : Place) (f : UInt8 → Flags → UInt8 × Flags)
    (h : p.flags = true) :
    let x := f (s.load r).1 (s.load r).2.cpu.regs.f
    s.Kept (((s.load r).2.setFlags x.2).store r x.1) p := by
  intro x
  have hflags : (s.load r).2.Kept ((s.load r).2.setFlags x.2) p :=
    ⟨fun hp => Bool.noConfusion (hp.symm.trans h), fun _ => rfl, fun _ => rfl⟩
  exact (kept_load s r).trans (hflags.trans (kept_store _ r x.1))

/-- Executing an instruction touches its footprint. -/
lemma kept_execute (s : Core μ) (i : Instruction) (operand : UInt16) :
    s.Kept (s.execute i operand).1 i.footprint := by
  cases i with
  | nop | storeSp | stop | halt | extended | illegal => exact .of_eq rfl
  | disableInterrupts | enableInterrupts => exact .of_eq (Processor.regs_requestIme _ _)
  | loadPair r | incPair r | decPair r => exact kept_setPair s _ decide_eq_true
  | addHl r | loadHlSp | rotateA op | daa | cpl | scf | ccf | aluOperand op =>
    exact ⟨Bool.noConfusion, fun _ => rfl, fun _ => rfl⟩
  | addSp => exact ⟨Bool.noConfusion, Bool.noConfusion, fun _ => rfl⟩
  | loadSpHl | push r => exact ⟨fun _ => rfl, Bool.noConfusion, fun _ => rfl⟩
  | storeA q =>
    have hwrite : s.Kept (s.write (s.address q operand) s.cpu.regs.a) { site := q.site } :=
      ⟨fun _ => rfl, fun _ => rfl, fun _ => rfl⟩
    exact hwrite.trans (kept_advance _ q)
  | loadA q =>
    have hread : s.Kept ((s.read (s.address q operand)).2.setA (s.read (s.address q operand)).1) {} :=
      ⟨fun _ => rfl, fun _ => rfl, fun _ => rfl⟩
    exact hread.trans (kept_advance _ q)
  | inc r => exact kept_modify s r Alu.inc rfl
  | dec r => exact kept_modify s r Alu.dec rfl
  | loadOperand r => exact kept_store s r _
  | load target source => exact (kept_load s source).trans (kept_store _ target _)
  | alu op source =>
    exact (kept_load s source).trans ⟨Bool.noConfusion, fun _ => rfl, fun _ => rfl⟩
  | jumpRelative cond | jump cond => exact kept_when ⟨fun _ => rfl, fun _ => rfl, Bool.noConfusion⟩
  | jumpHl => exact ⟨fun _ => rfl, fun _ => rfl, Bool.noConfusion⟩
  | call cond | ret cond => exact kept_when ⟨fun _ => rfl, Bool.noConfusion, Bool.noConfusion⟩
  | reti | restart target => exact ⟨fun _ => rfl, Bool.noConfusion, Bool.noConfusion⟩
  | pop r =>
    have hpop : s.Kept s.pop.2 { flags := r = .af, sp := true } :=
      ⟨fun _ => rfl, Bool.noConfusion, fun _ => rfl⟩
    exact hpop.trans (kept_setStackPair s.pop.2 s.pop.1 decide_eq_true)

/-- Executing an extended instruction touches its footprint. -/
lemma kept_executeExtended (s : Core μ) (i : ExtendedInstruction) :
    s.Kept (s.executeExtended i) i.footprint := by
  have hload : s.Kept (s.load i.place).2 i.footprint := kept_load s i.place
  cases i with
  | shift op r =>
    exact kept_modify s r (fun v f =>
      let x := Alu.shift op v f.carry
      (x.1, { zero := x.1 == 0, carry := x.2 })) rfl
  | test bit r => exact hload.trans ⟨Bool.noConfusion, fun _ => rfl, fun _ => rfl⟩
  | reset bit r => exact hload.trans (kept_store _ r _)
  | set bit r => exact hload.trans (kept_store _ r _)

/-- If the condition of an instruction does not hold, nothing happens. -/
lemma execute_of_not_satisfies (s : Core μ) (i : Instruction) (operand : UInt16)
    (h : s.satisfies i.condition = false) : s.execute i operand = (s, false) := by
  have hcond : ¬ s.satisfies i.condition = true := Bool.not_eq_true _ ▸ h
  cases i with
  | call cond | ret cond | jumpRelative cond | jump cond => exact if_neg hcond
  | _ => exact absurd rfl hcond

end

/-! ### Writes -/

section

variable {μ : Type} [Memory μ]

/-- Where the memory has been written to, the first place first. -/
def log (s : Core (Logged μ)) : List UInt16 := s.memory.writes.map Prod.fst

variable (s : Core (Logged μ))

/-- A write is listed. -/
lemma log_write (a : UInt16) (v : UInt8) : (s.write a v).log = s.log ++ [a] :=
  List.map_append

/-- A byte that is put into a place is written to its cell, if it has one. -/
lemma log_store (r : Place) (v : UInt8) (operand : UInt16) :
    (s.store r v).log = s.log ++ r.site.addresses s.cpu.regs operand := by
  cases r with
  | atHl => exact s.log_write _ _
  | _ => exact (List.append_nil _).symm

/-- A byte that is put into one place after another one was looked at is written to its cell, if it
has one. -/
lemma log_store_load (source target : Place) (v : UInt8) (operand : UInt16) :
    ((s.load source).2.store target v).log = s.log ++ target.site.addresses s.cpu.regs operand := by
  have hload : (s.load source).2.log = s.log := by
    cases source <;> rfl
  rw [log_store _ target v operand, hload, cpu_load]

/-- The flags do not matter. -/
lemma log_store_setFlags (t : Core (Logged μ)) (f : Flags) (r : Place) (v : UInt8) :
    ((t.setFlags f).store r v).log = (t.store r v).log := by
  cases r <;> rfl

/-- A word is pushed from its high byte on. -/
lemma log_push (w : UInt16) :
    (s.push w).log = s.log ++ [s.cpu.regs.sp - 1, s.cpu.regs.sp - 2] := by
  have hhigh := (s.setSp (s.cpu.regs.sp - 1)).log_write (s.cpu.regs.sp - 1) (Word.high w)
  rw [← Word.sub_one_sub_one]
  refine (log_write _ _ _).trans ((congrArg (· ++ _) hhigh).trans ?_)
  exact List.append_assoc _ _ _

/-- An instruction whose condition holds writes to the place in its footprint. -/
lemma log_execute (i : Instruction) (operand : UInt16) (h : s.satisfies i.condition = true) :
    (s.execute i operand).1.log = s.log ++ i.footprint.site.addresses s.cpu.regs operand := by
  have hnone : s.log = s.log ++ [] := (List.append_nil _).symm
  have hwhen : ∀ {cond act}, s.satisfies cond = true → (s.when cond act).1.log = (act s).log :=
    fun h => congrArg (fun x : Core (Logged μ) × Bool => x.1.log) (if_pos h)
  cases i with
  | storeSp =>
    have hlow := s.log_write operand (Word.low s.cpu.regs.sp)
    refine (log_write _ _ _).trans ((congrArg (· ++ _) hlow).trans ?_)
    exact List.append_assoc _ _ _
  | storeA q =>
    have hwrite := s.log_write (s.address q operand) s.cpu.regs.a
    cases q <;> exact hwrite
  | loadA q => cases q <;> exact hnone
  | inc r | dec r => exact (log_store_setFlags _ _ r _).trans (s.log_store_load r r _ operand)
  | loadOperand r => exact s.log_store r _ operand
  | load target source => exact s.log_store_load source target _ operand
  | alu op source => cases source <;> exact hnone
  | loadPair r | incPair r | decPair r => cases r <;> exact hnone
  | pop r => cases r <;> exact hnone
  | push r => exact s.log_push _
  | restart target => exact s.log_push _
  | call cond => exact (hwhen h).trans (s.log_push _)
  | ret cond | jumpRelative cond | jump cond => exact (hwhen h).trans hnone
  | _ => exact hnone

/-- An extended instruction writes to the place in its footprint. -/
lemma log_executeExtended (i : ExtendedInstruction) (operand : UInt16) :
    (s.executeExtended i).log = s.log ++ i.footprint.site.addresses s.cpu.regs operand := by
  cases i with
  | shift op r => exact (log_store_setFlags _ _ r _).trans (s.log_store_load r r _ operand)
  | test bit r => cases r <;> exact (List.append_nil _).symm
  | reset bit r => exact s.log_store_load r r _ operand
  | set bit r => exact s.log_store_load r r _ operand

/-- The end of a step writes nothing. -/
lemma log_traceStep (address : UInt16) (extended : Bool) (opcode : UInt8) (operand : UInt16)
    (cycles : UInt32) : (s.traceStep address extended opcode operand cycles).log = s.log := by
  unfold traceStep
  split
  · rfl
  · rfl

/-- The report of an opcode without a meaning writes nothing. -/
lemma reportIllegal_logged (s : Core FlatMemory) (i : Instruction) (opcode : UInt8)
    (address : UInt16) : s.logged.reportIllegal i opcode address = s.logged := by
  cases i <;> rfl

end

/-! ### Steps -/

variable {s : Core FlatMemory}

/-- The operand is the same when writes are listed. -/
lemma fetchOperand_logged (s : Core FlatMemory) (o : Operand) :
    (s.setPc (s.cpu.regs.pc + 1)).logged.fetchOperand o = (s.immediate o, (s.past o).logged) := by
  have hlogged : ∀ t : Core FlatMemory, t.logged.fetchOperand o =
      ((t.fetchOperand o).1, (t.fetchOperand o).2.logged) := by
    intro t
    cases o <;> rfl
  rw [hlogged, fetchOperand_flat]

/-- A running processor does not idle. -/
lemma step_logged (h : s.cpu.activity = .running) : s.logged.step = s.logged.stepRunning := by
  obtain ⟨hhalted, hstopped⟩ := awake_of_instruction (instruction_of_running h)
  refine if_neg ?_
  change ¬ (s.cpu.halted || s.cpu.stopped) = true
  simp [hhalted, hstopped]

/-- A step writes what its instruction writes. -/
lemma log_step (h : s.cpu.activity = .running)
    (hopcode : s.memory.cells s.cpu.regs.pc ≠ extensionByte) :
    let i := Instruction.decode (s.memory.cells s.cpu.regs.pc)
    s.logged.step.2.log = ((s.past i.operand).logged.execute i (s.immediate i.operand)).1.log := by
  have hfetch : s.logged.fetch =
      (s.memory.cells s.cpu.regs.pc, (s.setPc (s.cpu.regs.pc + 1)).logged) := rfl
  rw [step_logged h, stepRunning]
  simp only [hfetch, if_neg hopcode, fetchOperand_logged, reportIllegal_logged, log_traceStep]
  rfl

/-- A step with an extended instruction writes what this instruction writes. -/
lemma log_step_extended (h : s.cpu.activity = .running)
    (hopcode : s.memory.cells s.cpu.regs.pc = extensionByte) :
    s.logged.step.2.log = ((s.past .byte).logged.executeExtended
      (.decode (s.memory.cells (s.cpu.regs.pc + 1)))).log := by
  have hfetch : s.logged.fetch =
      (s.memory.cells s.cpu.regs.pc, (s.setPc (s.cpu.regs.pc + 1)).logged) := rfl
  have hbyte : (s.setPc (s.cpu.regs.pc + 1)).logged.fetch =
      (s.memory.cells (s.cpu.regs.pc + 1), (s.past .byte).logged) :=
    congrArg (Prod.mk _) (congrArg Prod.snd (s.fetchOperand_logged .byte))
  rw [step_logged h, stepRunning]
  simp only [hfetch, if_pos hopcode, hbyte, log_traceStep]
  rfl

/-- Cells that a step does not write to are as before. -/
lemma memory_step (s : Core FlatMemory) :
    s.step.2.memory.interrupts = s.memory.interrupts ∧
      ∀ a ∉ s.logged.step.2.log, s.step.2.memory.cells a = s.memory.cells a := by
  have hstart : Related (Logged.Spares s.memory) s.logged s := ⟨rfl, rfl, rfl, fun _ _ => rfl⟩
  obtain ⟨-, -, hspares⟩ := (Logged.phased_spares s.memory).step hstart
  exact hspares.2

end Core

/-! ### Opcodes -/

namespace Opcode

/-- The jumps. -/
def jumps : List UInt8 := [0x18, 0x20, 0x28, 0x30, 0x38, 0xC2, 0xC3, 0xCA, 0xD2, 0xDA, 0xE9]

/-- The calls, also those of fixed addresses. -/
def calls : List UInt8 :=
  [0xC4, 0xCC, 0xCD, 0xD4, 0xDC, 0xC7, 0xCF, 0xD7, 0xDF, 0xE7, 0xEF, 0xF7, 0xFF]

/-- The returns. -/
def returns : List UInt8 := [0xC0, 0xC8, 0xC9, 0xD0, 0xD8, 0xD9]

/-- The jumps, calls and returns that happen only under a condition. -/
def conditional : List UInt8 :=
  [0x20, 0x28, 0x30, 0x38, 0xC0, 0xC2, 0xC4, 0xC8, 0xCA, 0xCC, 0xD0, 0xD2, 0xD4, 0xD8, 0xDA, 0xDC]

/-- The instructions that push a word register. -/
def pushes : List UInt8 := [0xC5, 0xD5, 0xE5, 0xF5]

/-- The instructions that pop a word register. -/
def pops : List UInt8 := [0xC1, 0xD1, 0xE1, 0xF1]

/-- Where the instruction with an opcode writes. -/
def site (opcode : UInt8) : Site :=
  if opcode = 0x02 then .atBc
  else if opcode = 0x12 then .atDe
  else if opcode ∈ [0x22, 0x32, 0x34, 0x35, 0x36, 0x70, 0x71, 0x72, 0x73, 0x74, 0x75, 0x77] then
    .atHl
  else if opcode = 0xE0 then .pageOperand
  else if opcode = 0xE2 then .pageC
  else if opcode = 0xEA then .atOperand
  else if opcode = 0x08 then .wordAtOperand
  else if opcode ∈ pushes ++ calls then .belowSp
  else .nowhere

/-- Whether it changes the flags: it computes in the accumulator or in a place, adds to a word, or
pops the flags. -/
def changesFlags (opcode : UInt8) : Bool :=
  if opcode < 0x40 then opcode.toNat % 8 ∈ [4, 5, 7] ∨ opcode.toNat % 16 = 9
  else if opcode < 0x80 then false
  else if opcode < 0xC0 then true
  else opcode.toNat % 8 = 6 ∨ opcode ∈ [0xE8, 0xF1, 0xF8]

/-- Whether it changes the stack pointer: it works on the stack, or puts something into the stack
pointer. -/
def changesSp (opcode : UInt8) : Bool :=
  opcode ∈ pushes ++ pops ++ calls ++ returns ++ [0x31, 0x33, 0x3B, 0xE8, 0xF9]

/-- What the instruction with an opcode touches if its condition holds. -/
def footprint (opcode : UInt8) : Footprint where
  site := site opcode
  flags := changesFlags opcode
  sp := changesSp opcode
  jumps := opcode ∈ jumps ++ calls ++ returns

/-- What an extended instruction touches. -/
def extendedFootprint (opcode : UInt8) : Footprint where
  site := if opcode.toNat % 8 = 6 ∧ opcode.toNat / 64 ≠ 1 then .atHl else .nowhere
  flags := opcode < 0x80

/-- The number of bytes of an instruction. -/
def length (opcode : UInt8) : Nat :=
  if opcode ∈ [0x01, 0x08, 0x11, 0x21, 0x31, 0xC2, 0xC3, 0xC4, 0xCA, 0xCC, 0xCD, 0xD2, 0xD4, 0xDA,
    0xDC, 0xEA, 0xFA] then 3
  else if opcode ∈ [0x06, 0x0E, 0x10, 0x16, 0x18, 0x1E, 0x20, 0x26, 0x28, 0x2E, 0x30, 0x36, 0x38,
    0x3E, 0xC6, 0xCB, 0xCE, 0xD6, 0xDE, 0xE0, 0xE6, 0xE8, 0xEE, 0xF0, 0xF6, 0xF8, 0xFE] then 2
  else 1

end Opcode

/-- The opcodes of the decoded instructions. -/
lemma Instruction.footprint_decode : ∀ opcode,
    (decode opcode).footprint = Opcode.footprint opcode := by
  decide +kernel

lemma Instruction.condition_decode : ∀ opcode, (decode opcode).condition =
    if opcode ∈ Opcode.conditional then .ofField (opcode.toNat / 8) else .always := by
  decide +kernel

lemma Instruction.length_decode : ∀ opcode, opcode ≠ extensionByte →
    1 + (decode opcode).operand.length = Opcode.length opcode := by
  decide +kernel

lemma Instruction.decode_ne_extended : ∀ opcode, opcode ≠ extensionByte →
    decode opcode ≠ .extended := by
  decide +kernel

lemma ExtendedInstruction.footprint_decode : ∀ opcode,
    (decode opcode).footprint = Opcode.extendedFootprint opcode := by
  decide +kernel

/-- Whether the flags let the instruction with an opcode happen. -/
def Flags.permit (f : Flags) (opcode : UInt8) : Bool :=
  opcode ∉ Opcode.conditional || f.meets opcode

/-- The operand matters for where an instruction writes only if it has one. -/
lemma Instruction.addresses_immediate (i : Instruction) (r : Registers) (s : Core FlatMemory) :
    i.footprint.site.addresses r (s.immediate i.operand) =
      i.footprint.site.addresses r (s.immediate .word) := by
  have hlow : Word.low (s.immediate .byte) = Word.low (s.immediate .word) := by
    rw [Core.immediate, Word.low_toUInt16, Core.immediate, Word.low_join]
  cases i with
  | storeA q =>
    cases q with
    | pageOperand => exact congrArg (fun v : UInt8 => [0xFF00 + v.toUInt16]) hlow
    | _ => rfl
  | loadOperand r | load r _ | inc r | dec r => cases r <;> rfl
  | _ => rfl

namespace Core

variable {s : Core FlatMemory}

/-- The condition in an opcode is one of the flags. -/
lemma satisfies_condition {μ : Type} (s : Core μ) (opcode : UInt8) :
    s.satisfies (Instruction.decode opcode).condition = s.cpu.regs.f.permit opcode := by
  rw [Instruction.condition_decode, Flags.permit]
  by_cases h : opcode ∈ Opcode.conditional
  · rw [if_pos h, satisfies_ofField, decide_eq_false (not_not_intro h), Bool.false_or]
  · rw [if_neg h, decide_eq_true h, Bool.true_or]
    rfl

/-- What the instruction at the program counter touches. -/
def footprint (s : Core FlatMemory) : Footprint :=
  let opcode := s.memory.cells s.cpu.regs.pc
  if opcode = extensionByte then
    Opcode.extendedFootprint (s.memory.cells (s.cpu.regs.pc + 1))
  else if s.cpu.regs.f.permit opcode then Opcode.footprint opcode
  else {}

/-- The core in front of the next instruction. -/
def following (s : Core FlatMemory) : Core FlatMemory :=
  s.setPc (s.cpu.regs.pc + UInt16.ofNat (Opcode.length (s.memory.cells s.cpu.regs.pc)))

/-- The program counter is behind the operand when the instruction is executed. -/
lemma past_operand (hopcode : s.memory.cells s.cpu.regs.pc ≠ extensionByte) :
    s.past (Instruction.decode (s.memory.cells s.cpu.regs.pc)).operand = s.following := by
  rw [past, following, Instruction.length_decode _ hopcode]

/-- Where the instruction is does not matter for where it writes. -/
lemma addresses_following (s : Core FlatMemory) (x : Site) (operand : UInt16) :
    x.addresses s.following.cpu.regs operand = x.addresses s.cpu.regs operand := by
  cases x <;> rfl

/-- A step of a running processor touches the footprint. -/
lemma step_footprint (hs : s.cpu.activity = .running) :
    s.following.Kept s.step.2 s.footprint ∧
      s.logged.step.2.log = s.footprint.site.addresses s.cpu.regs (s.immediate .word) := by
  have hretire : ∀ t : Core FlatMemory, t.Kept t.retireDelay s.footprint :=
    fun t => .of_eq t.cpu.regs_retireDelay
  by_cases hopcode : s.memory.cells s.cpu.regs.pc = extensionByte
  · have hpast : s.past .byte = s.following := by
      rw [following, hopcode]
      rfl
    have hfootprint : s.footprint =
        (ExtendedInstruction.decode (s.memory.cells (s.cpu.regs.pc + 1))).footprint := by
      rw [footprint, if_pos hopcode, ExtendedInstruction.footprint_decode]
    rw [step_of_extended hs hopcode, log_step_extended hs hopcode, hpast, hfootprint]
    exact ⟨(kept_executeExtended _ _).trans (hfootprint ▸ hretire _),
      (log_executeExtended _ _ _).trans (s.addresses_following _ _)⟩
  · have hstep := step_of_instruction (instruction_of_running hs)
      (Instruction.decode_ne_extended _ hopcode)
    have hlog := log_step hs hopcode
    simp only [past_operand hopcode] at hstep hlog
    rw [hstep, hlog]
    have hcond := satisfies_condition s.following (s.memory.cells s.cpu.regs.pc)
    cases hpermit : s.cpu.regs.f.permit (s.memory.cells s.cpu.regs.pc) with
    | true =>
      have hfootprint : s.footprint =
          (Instruction.decode (s.memory.cells s.cpu.regs.pc)).footprint := by
        rw [footprint, if_neg hopcode, if_pos hpermit, Instruction.footprint_decode]
      rw [hfootprint, ← Instruction.addresses_immediate]
      exact ⟨(kept_execute _ _ _).trans (hfootprint ▸ hretire _),
        (log_execute _ _ _ (hcond.trans hpermit)).trans (s.addresses_following _ _)⟩
    | false =>
      have hfootprint : s.footprint = {} := by
        rw [footprint, if_neg hopcode, hpermit]
        rfl
      rw [hfootprint, execute_of_not_satisfies s.following _ _ (hcond.trans hpermit),
        execute_of_not_satisfies s.following.logged _ _ (hcond.trans hpermit)]
      exact ⟨hfootprint ▸ hretire _, rfl⟩

/-- A step of a running processor writes to the addresses in the footprint, in this order, and
changes no other cell.  It goes on to the next instruction unless this is a transfer of control that
happens, and leaves the flags and the stack pointer as they are unless they are in the footprint.
Its cost is a multiple of four. -/
theorem step_frame (hs : s.cpu.activity = .running) :
    let pc := s.cpu.regs.pc
    let opcode := s.memory.cells pc
    let nn := Word.join (s.memory.cells (pc + 2)) (s.memory.cells (pc + 1))
    let written := s.footprint.site.addresses s.cpu.regs nn
    s.logged.step.2.log = written ∧
    (∀ a ∉ written, s.step.2.memory.cells a = s.memory.cells a) ∧
    (s.footprint.site = .nowhere → s.step.2.memory = s.memory) ∧
    (s.footprint.jumps = false →
      s.step.2.cpu.regs.pc = pc + UInt16.ofNat (Opcode.length opcode)) ∧
    (s.footprint.flags = false → s.step.2.cpu.regs.f = s.cpu.regs.f) ∧
    (s.footprint.sp = false → s.step.2.cpu.regs.sp = s.cpu.regs.sp) ∧
    4 ∣ s.step.1.toNat ∧ 4 ≤ s.step.1.toNat ∧ s.step.1.toNat ≤ 24 := by
  intro pc opcode nn written
  obtain ⟨hkept, hlog⟩ := step_footprint hs
  obtain ⟨hinterrupts, hcells⟩ := s.memory_step
  rw [hlog] at hcells
  have hcost : ∀ c ∈ stepCosts, 4 ∣ c.toNat ∧ 4 ≤ c.toNat ∧ c.toNat ≤ 24 :=
    List.forall_iff_forall_mem.mp (by decide)
  refine ⟨hlog, hcells, fun hsite => ?_, hkept.pc, hkept.flags, hkept.sp, hcost _ s.step_cost_mem⟩
  refine FlatMemory.mk.injEq .. ▸ ⟨funext fun a => hcells a ?_, hinterrupts⟩
  rw [hsite]
  exact List.not_mem_nil

/-- A processor with the zero flag set, in front of an instruction at the upper end of the address
space; all other bytes are `0xFF`. -/
def bordering (opcode : UInt8) : Core FlatMemory :=
  ⟨{ regs := { f := { zero := true }, sp := 1, pc := 0xFFFD } },
    { cells := fun a => if a = 0xFFFD then opcode else 0xFF }⟩

/-- What `step_frame` says about this processor: a word is stored or pushed around the lower end of
the address space, and a call whose condition does not hold goes on there. -/
theorem step_frame_bordering :
    (∀ opcode, (bordering opcode).cpu.activity = .running) ∧
    (bordering 0x08).logged.step.2.log = [0xFFFF, 0] ∧
    (bordering 0xC5).logged.step.2.log = [0, 0xFFFF] ∧
    (bordering 0xC4).step.2.cpu.regs.pc = 0 ∧
    (bordering 0xC4).step.2.cpu.regs.sp = 1 ∧
    (bordering 0xED).step.2.memory = (bordering 0xED).memory := by
  have hrunning : ∀ opcode, (bordering opcode).cpu.activity = .running := fun _ => rfl
  obtain ⟨hstore, -⟩ := step_frame (hrunning 0x08)
  obtain ⟨hpush, -⟩ := step_frame (hrunning 0xC5)
  obtain ⟨-, -, -, hpc, -, hsp, -⟩ := step_frame (hrunning 0xC4)
  obtain ⟨-, -, hillegal, -⟩ := step_frame (hrunning 0xED)
  exact ⟨hrunning, hstore, hpush, hpc (by decide), hsp (by decide), hillegal (by decide)⟩

end Core

end Handheld
