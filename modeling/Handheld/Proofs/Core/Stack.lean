import Handheld.Proofs.Core.Opcodes
import Mathlib.Data.List.Basic

/-!
# The stack

The stack grows downwards, and a word on it has its high byte above its low byte:
`FlatMemory.pushed` is the memory after a push, and `FlatMemory.word` is the word at an address.
Addresses are words, so the stack may run around the lower end of the address space.  It returns
what was pushed as long as it does not run into itself, which it does after `2 ^ 16` bytes.  To say
how far it has run, `Below` counts downwards from the stack pointer.

The main statement is `Core.stack_lifo`.  Its first part is about words that are pushed one after
the other and popped again (`Core.popMany_pushAll`), its second part about the instructions.
-/

namespace Handheld

/-! ### Words in memory -/

/-- Whether an address is one of the first `n` below another one. -/
def Below (sp : UInt16) (n : Nat) (a : UInt16) : Prop := (sp - 1 - a).toNat < n

/-- Counted from the top, the addresses are the first ones less one, less two, and so on. -/
lemma Below.exists_eq {sp a : UInt16} {n : Nat} (h : Below sp n a) :
    ∃ k, 1 ≤ k ∧ k ≤ n ∧ a = sp - UInt16.ofNat k := by
  refine ⟨(sp - 1 - a).toNat + 1, Nat.le_add_left 1 _, h, ?_⟩
  rw [UInt16.ofNat_add, UInt16.ofNat_toNat]
  grind

/-- The first `n + 2` addresses are two, and the `n` below them. -/
lemma not_below_add_two {sp a : UInt16} {n : Nat} (h : ¬ Below sp (n + 2) a) :
    a ≠ sp - 1 ∧ a ≠ sp - 2 ∧ ¬ Below (sp - 2) n a := by
  have hfar : n + 2 ≤ (sp - 1 - a).toNat := Nat.not_lt.mp h
  refine ⟨?_, ?_, ?_⟩
  · rintro rfl
    simp at hfar
  · rintro rfl
    rw [show sp - 1 - (sp - 2) = 1 by grind] at hfar
    simp at hfar
  · have hle : 2 ≤ sp - 1 - a :=
      UInt16.le_iff_toNat_le.mpr (Nat.le_trans (Nat.le_add_left 2 n) hfar)
    rw [Below, show sp - 2 - 1 - a = sp - 1 - a - 2 by grind, UInt16.toNat_sub_of_le _ _ hle]
    have htwo : (2 : UInt16).toNat = 2 := rfl
    omega

/-- The two are not met again from below. -/
lemma not_below_top (sp : UInt16) {n : Nat} (hn : n + 2 ≤ 65536) :
    ¬ Below (sp - 2) n (sp - 1) ∧ ¬ Below (sp - 2) n (sp - 2) := by
  unfold Below
  rw [show sp - 2 - 1 - (sp - 1) = 0xFFFE by grind, show sp - 2 - 1 - (sp - 2) = 0xFFFF by grind]
  simp
  omega

namespace FlatMemory

/-- The word at an address, its low byte first. -/
def word (m : FlatMemory) (a : UInt16) : UInt16 := Word.join (m.cells (a + 1)) (m.cells a)

/-- The memory after a word was pushed. -/
def pushed (m : FlatMemory) (sp w : UInt16) : FlatMemory :=
  (m.set (sp - 1) (Word.high w)).set (sp - 2) (Word.low w)

variable (m : FlatMemory) (sp w : UInt16)

/-- Only the two cells below the stack pointer change. -/
lemma cells_pushed_of_ne {a : UInt16} (hhigh : a ≠ sp - 1) (hlow : a ≠ sp - 2) :
    (m.pushed sp w).cells a = m.cells a := by
  rw [pushed, cells_set_of_ne _ hlow, cells_set_of_ne _ hhigh]

/-- The two cells below the stack pointer hold the bytes of the word that was pushed. -/
lemma cells_pushed :
    (m.pushed sp w).cells (sp - 1) = Word.high w ∧ (m.pushed sp w).cells (sp - 2) = Word.low w := by
  have hne : sp - 1 ≠ sp - 2 := by grind
  rw [pushed, cells_set_self, cells_set_of_ne _ hne, cells_set_self]
  exact ⟨rfl, rfl⟩

/-- A word whose bytes are in memory. -/
lemma word_eq {a : UInt16} (hhigh : m.cells (a + 1) = Word.high w) (hlow : m.cells a = Word.low w) :
    m.word a = w := by
  rw [word, hhigh, hlow, Word.join_high_low]

/-- The pushed word is where the stack pointer is then. -/
lemma word_pushed : (m.pushed sp w).word (sp - 2) = w := by
  obtain ⟨hhigh, hlow⟩ := m.cells_pushed sp w
  have habove : sp - 2 + 1 = sp - 1 := by grind
  exact word_eq _ _ (habove ▸ hhigh) hlow

end FlatMemory

/-! ### Many words -/

namespace Core

/-- Push words, the first one first. -/
def pushAll {μ : Type} [Memory μ] (s : Core μ) (ws : List UInt16) : Core μ := ws.foldl push s

/-- Pop a number of words, and list them as they come. -/
def popMany {μ : Type} [Memory μ] : Nat → Core μ → List UInt16 × Core μ
  | 0, s => ([], s)
  | n + 1, s => (s.pop.1 :: (popMany n s.pop.2).1, (popMany n s.pop.2).2)

variable {s : Core FlatMemory}

/-- What a push does. -/
lemma push_flat (s : Core FlatMemory) (w : UInt16) :
    s.push w = ⟨{ s.cpu with regs := { s.cpu.regs with sp := s.cpu.regs.sp - 2 } },
      s.memory.pushed s.cpu.regs.sp w⟩ := by
  rw [FlatMemory.pushed, ← Word.sub_one_sub_one]
  rfl

/-- What a pop does. -/
lemma pop_flat (s : Core FlatMemory) :
    s.pop = (s.memory.word s.cpu.regs.sp, s.setSp (s.cpu.regs.sp + 2)) := by
  have htwo : s.cpu.regs.sp + 2 = s.cpu.regs.sp + 1 + 1 := (UInt16.add_assoc _ 1 1).symm
  rw [htwo]
  rfl

/-- A pushed word is popped as long as it is in memory. -/
lemma pop_push {w : UInt16} {m : FlatMemory} (hw : m.word (s.cpu.regs.sp - 2) = w) :
    pop ⟨(s.push w).cpu, m⟩ = (w, ⟨s.cpu, m⟩) := by
  have hback : s.cpu.regs.sp - 2 + 2 = s.cpu.regs.sp := by grind
  rw [pop_flat, push_flat]
  simp only [setSp, withRegs, hw, hback]

/-- What was pushed first is popped last. -/
lemma popMany_succ {μ : Type} [Memory μ] (n : Nat) (s : Core μ) :
    popMany (n + 1) s =
      ((popMany n s).1 ++ [(popMany n s).2.pop.1], (popMany n s).2.pop.2) := by
  induction n generalizing s with
  | zero => rfl
  | succ n ih =>
    rw [popMany, ih]
    rfl

/-- Words are pushed into cells below the stack pointer. -/
lemma memory_pushAll (s : Core FlatMemory) (ws : List UInt16) :
    (s.pushAll ws).memory.interrupts = s.memory.interrupts ∧
      ∀ a, ¬ Below s.cpu.regs.sp (2 * ws.length) a →
        (s.pushAll ws).memory.cells a = s.memory.cells a := by
  induction ws generalizing s with
  | nil => exact ⟨rfl, fun _ _ => rfl⟩
  | cons w ws ih =>
    have hcons : s.pushAll (w :: ws) = (s.push w).pushAll ws := rfl
    obtain ⟨hinterrupts, hcells⟩ := ih (s.push w)
    refine ⟨hinterrupts, fun a ha => ?_⟩
    obtain ⟨hhigh, hlow, hbelow⟩ := not_below_add_two ha
    rw [hcons, hcells a (by rwa [push_flat]), push_flat]
    exact FlatMemory.cells_pushed_of_ne _ _ _ hhigh hlow

/-- A word is still there after others, as long as the stack does not run into itself. -/
lemma word_pushAll (s : Core FlatMemory) (w : UInt16) {ws : List UInt16}
    (hws : 2 * ws.length + 2 ≤ 65536) :
    ((s.push w).pushAll ws).memory.word (s.cpu.regs.sp - 2) = w := by
  obtain ⟨habove, hat⟩ := not_below_top s.cpu.regs.sp hws
  obtain ⟨-, hcells⟩ := memory_pushAll (s.push w) ws
  obtain ⟨hhigh, hlow⟩ := s.memory.cells_pushed s.cpu.regs.sp w
  have hnext : s.cpu.regs.sp - 2 + 1 = s.cpu.regs.sp - 1 := by grind
  apply FlatMemory.word_eq
  · rw [hnext, hcells _ (by rwa [push_flat]), push_flat]
    exact hhigh
  · rw [hcells _ (by rwa [push_flat]), push_flat]
    exact hlow

/-- Words that were pushed come back in reverse order. -/
theorem popMany_pushAll (s : Core FlatMemory) (ws : List UInt16) (hws : 2 * ws.length ≤ 65536) :
    popMany ws.length (s.pushAll ws) = (ws.reverse, ⟨s.cpu, (s.pushAll ws).memory⟩) := by
  induction ws generalizing s with
  | nil => rfl
  | cons w ws ih =>
    have hroom : 2 * ws.length + 2 ≤ 65536 := hws
    have hcons : s.pushAll (w :: ws) = (s.push w).pushAll ws := rfl
    rw [List.length_cons, hcons, popMany_succ, ih (s.push w) (by omega),
      pop_push (word_pushAll s w hroom), List.reverse_cons]

/-! ### Instructions -/

/-- Which byte is in a register of the stack instructions does not depend on the program counter. -/
lemma stackPair_past (s : Core FlatMemory) (o : Operand) (r : StackPair) :
    (s.past o).stackPair r = s.stackPair r := by
  cases r <;> rfl

/-- A step with `PUSH`. -/
lemma step_push {r : StackPair} (h : s.instruction? = some (.push r)) :
    s.step = (16, s.after
      { s.cpu.regs with pc := s.cpu.regs.pc + 1, sp := s.cpu.regs.sp - 2 }
      (s.memory.pushed s.cpu.regs.sp (s.stackPair r))) := by
  rw [step_of_instruction h Instruction.noConfusion]
  simp only [execute, push_flat, stackPair_past]
  exact congrArg (Prod.mk 16) (s.retireDelay_eq_after _ _)

/-- A step with `POP`. -/
lemma step_pop {r : StackPair} (h : s.instruction? = some (.pop r)) :
    s.step = (12, s.after
      { (s.setStackPair r (s.memory.word s.cpu.regs.sp)).cpu.regs with
        pc := s.cpu.regs.pc + 1, sp := s.cpu.regs.sp + 2 } s.memory) := by
  rw [step_of_instruction h Instruction.noConfusion]
  simp only [execute, pop_flat]
  rw [← retireDelay_eq_after]
  cases r <;> rfl

/-- What was stored into a pair is there, apart from the low nibble of the flags. -/
lemma stackPair_setStackPair (s : Core FlatMemory) (r : StackPair) (v : UInt16) :
    (s.setStackPair r v).stackPair r =
      if r = .af then Word.join (Word.high v) (Word.low v &&& 0xF0) else v := by
  cases r with
  | af => exact congrArg (Word.join _) (Flags.toByte_ofByte _)
  | bc => exact Registers.bc_setBc _ v
  | de => exact Registers.de_setDe _ v
  | hl => exact Registers.hl_setHl _ v

/-- Storing into a pair leaves the other pairs as they were. -/
lemma stackPair_setStackPair_of_ne (s : Core FlatMemory) {p r : StackPair} (h : p ≠ r)
    (v : UInt16) : (s.setStackPair r v).stackPair p = s.stackPair p := by
  cases r <;> cases p <;> first | exact absurd rfl h | rfl

/-- `PUSH` and then `POP`, if the push does not overwrite the second instruction. -/
lemma step_push_pop {q r : StackPair} (hs : s.cpu.activity = .running)
    (hq : s.memory.cells s.cpu.regs.pc = Opcode.push q)
    (hr : s.memory.cells (s.cpu.regs.pc + 1) = Opcode.pop r)
    (hhigh : s.cpu.regs.pc + 1 ≠ s.cpu.regs.sp - 1) (hlow : s.cpu.regs.pc + 1 ≠ s.cpu.regs.sp - 2) :
    s.step.2.step = (12, s.step.2.after
      { (s.setStackPair r (s.stackPair q)).cpu.regs with pc := s.cpu.regs.pc + 2 }
      (s.memory.pushed s.cpu.regs.sp (s.stackPair q))) := by
  have hfirst : s.instruction? = some (.push q) := by
    rw [instruction_of_running hs, hq, Instruction.decode_push]
  have hpush := step_push hfirst
  rw [hpush]
  let t := s.after { s.cpu.regs with pc := s.cpu.regs.pc + 1, sp := s.cpu.regs.sp - 2 }
    (s.memory.pushed s.cpu.regs.sp (s.stackPair q))
  have hpop : t.instruction? = some (.pop r) := by
    have hcell : t.memory.cells t.cpu.regs.pc = Opcode.pop r :=
      (s.memory.cells_pushed_of_ne _ _ hhigh hlow).trans hr
    rw [instruction_of_running ((activity_after ..).trans hs), hcell, Instruction.decode_pop]
  have hword : t.memory.word t.cpu.regs.sp = s.stackPair q := s.memory.word_pushed _ _
  have hsp : t.cpu.regs.sp + 2 = s.cpu.regs.sp := by
    change s.cpu.regs.sp - 2 + 2 = s.cpu.regs.sp
    grind
  have hpc : t.cpu.regs.pc + 1 = s.cpu.regs.pc + 2 := UInt16.add_assoc _ 1 1
  refine (step_pop hpop).trans ?_
  rw [hword, hsp, hpc]
  cases r <;> rfl

/-- The stack returns the last word first.  Up to as many words as fit into the address space come
back in reverse order, the stack pointer is then where it was, and the memory has changed only below
it.  `PUSH` and `POP` together move a pair of registers to another one, of which the low nibble of
the flags is not kept, if the push does not overwrite the pop. -/
theorem stack_lifo (s : Core FlatMemory) :
    (∀ ws : List UInt16, ws.length ≤ 32768 →
      let t := s.pushAll ws
      popMany ws.length t = (ws.reverse, ⟨s.cpu, t.memory⟩) ∧
      t.memory.interrupts = s.memory.interrupts ∧
      ∀ a, t.memory.cells a ≠ s.memory.cells a →
        ∃ k, 1 ≤ k ∧ k ≤ 2 * ws.length ∧ a = s.cpu.regs.sp - UInt16.ofNat k) ∧
    (s.cpu.activity = .running →
      let pc := s.cpu.regs.pc
      let sp := s.cpu.regs.sp
      ∀ q r, s.memory.cells pc = Opcode.push q → s.memory.cells (pc + 1) = Opcode.pop r →
      pc + 1 ≠ sp - 1 → pc + 1 ≠ sp - 2 →
      let v := s.stackPair q
      let u := s.step.2.step.2
      u = s.step.2.after { (s.setStackPair r v).cpu.regs with pc := pc + 2 } (s.memory.pushed sp v) ∧
      u.stackPair r = (if r = .af then Word.join (Word.high v) (Word.low v &&& 0xF0) else v) ∧
      (∀ p ≠ r, u.stackPair p = s.stackPair p) ∧
      u.cpu.regs.sp = sp ∧ Word.low (u.stackPair .af) &&& 0x0F = 0) := by
  refine ⟨fun ws hws => ?_, fun hs => ?_⟩
  · obtain ⟨hinterrupts, hcells⟩ := memory_pushAll s ws
    refine ⟨popMany_pushAll s ws (by omega), hinterrupts, fun a ha => ?_⟩
    exact Below.exists_eq (Classical.byContradiction fun hfar => ha (hcells a hfar))
  · intro pc sp q r hfirst hsecond hhigh hlow v u
    have hu : u = s.step.2.after { (s.setStackPair r v).cpu.regs with pc := pc + 2 }
        (s.memory.pushed sp v) :=
      congrArg Prod.snd (step_push_pop hs hfirst hsecond hhigh hlow)
    have hpair : ∀ p, u.stackPair p = (s.setStackPair r v).stackPair p := by
      intro p
      rw [hu]
      cases p <;> rfl
    refine ⟨hu, (hpair r).trans (stackPair_setStackPair ..),
      fun p hp => (hpair p).trans (stackPair_setStackPair_of_ne s hp v), ?_, ?_⟩
    · rw [hu]
      cases r <;> rfl
    · exact (congrArg (· &&& 0x0F) (Word.low_join _ _)).trans (Flags.toByte_and_low _)

/-- A processor in front of `PUSH BC` and `POP AF`, with the stack pointer near the lower end of the
address space. -/
def pushing : Core FlatMemory :=
  ⟨{ regs := { b := 0x12, c := 0xFF, sp := 1, pc := 0xC000 } },
    { cells := fun a => if a = 0xC000 then 0xC5 else if a = 0xC001 then 0xF1 else 0 }⟩

/-- What `stack_lifo` says about the processor at the lower end of the address space: as many words
as there is room for, and the two instructions. -/
theorem stack_lifo_around :
    (List.replicate 32768 (0x1234 : UInt16)).length ≤ 32768 ∧
    (popMany 3 (pushing.pushAll [0x1234, 0x5678, 0x9ABC])).1 = [0x9ABC, 0x5678, 0x1234] ∧
    (popMany 32768 (pushing.pushAll (List.replicate 32768 0x1234))).2.cpu = pushing.cpu ∧
    pushing.cpu.activity = .running ∧
    pushing.step.2.step.2.stackPair .af = 0x12F0 ∧
    pushing.step.2.step.2.stackPair .bc = 0x12FF ∧
    pushing.step.2.step.2.cpu.regs.sp = 1 := by
  obtain ⟨hmany, hinstructions⟩ := stack_lifo pushing
  have hlength : (List.replicate 32768 (0x1234 : UInt16)).length ≤ 32768 :=
    Nat.le_of_eq List.length_replicate
  obtain ⟨hthree, -, -⟩ := hmany [0x1234, 0x5678, 0x9ABC] (by decide)
  obtain ⟨hfull, -, -⟩ := hmany (List.replicate 32768 0x1234) hlength
  rw [List.length_replicate] at hfull
  obtain ⟨-, haf, hother, hsp, -⟩ :=
    hinstructions rfl .bc .af rfl rfl (by decide) (by decide)
  exact ⟨hlength, congrArg Prod.fst hthree, congrArg (·.2.cpu) hfull, rfl, haf,
    hother .bc StackPair.noConfusion, hsp⟩

end Core

end Handheld
