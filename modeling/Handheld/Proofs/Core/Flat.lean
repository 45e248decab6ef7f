import Handheld.Proofs.Core.Control

/-!
# Steps on independent cells

In a `FlatMemory` reading changes nothing and reports go nowhere, so a step of a processor that is
not idle is one equation (`Core.step_of_instruction`, `Core.step_of_extended`): the instruction is
the one that the cell at the program counter asks for, its operand stands in the cells behind
(`Core.immediate`), and it is executed with the program counter already behind the operand
(`Core.past`).

Most instructions change registers and memory only.  `Core.after` is the core after a step with such
an instruction, in which a delayed change of the master enable flag has passed besides.
-/

namespace Handheld

namespace FlatMemory

variable (m : FlatMemory)

/-- A cell holds what was stored in it last. -/
lemma cells_set_self (a : UInt16) (v : UInt8) : (m.set a v).cells a = v :=
  if_pos rfl

/-- To store a byte leaves all other cells as they are. -/
lemma cells_set_of_ne {a b : UInt16} (h : b ≠ a) (v : UInt8) : (m.set a v).cells b = m.cells b :=
  if_neg h

/-- A byte that is put back undoes a store. -/
lemma set_set_cells (a : UInt16) (v : UInt8) : (m.set a v).set a (m.cells a) = m := by
  refine FlatMemory.mk.injEq .. ▸ ⟨funext fun b => ?_, rfl⟩
  by_cases h : b = a
  · rw [h]
    exact cells_set_self _ _ _
  · rw [if_neg h]
    exact cells_set_of_ne m h v

end FlatMemory

/-- A delayed change of the master enable flag passes whatever the registers are. -/
lemma Processor.retireDelay_regs (p : Processor) (r : Registers) :
    ({ p with regs := r } : Processor).retireDelay = { p.retireDelay with regs := r } := by
  cases h : p.delay <;> simp [retireDelay, h]

/-- A delayed change of the master enable flag is not a change of the registers. -/
lemma Processor.regs_retireDelay (p : Processor) : p.retireDelay.regs = p.regs := by
  cases h : p.delay <;> simp [retireDelay, h]

/-- A processor goes on with what it is doing while a delayed change passes. -/
lemma Processor.activity_retireDelay (p : Processor) : p.retireDelay.activity = p.activity := by
  cases h : p.delay <;> simp [retireDelay, activity, h]

namespace Core

variable {s : Core FlatMemory} {i : Instruction}

/-- The operand of the instruction at the program counter; a word has its low byte first. -/
def immediate (s : Core FlatMemory) : Operand → UInt16
  | .none => 0
  | .byte => (s.memory.cells (s.cpu.regs.pc + 1)).toUInt16
  | .word =>
    Word.join (s.memory.cells (s.cpu.regs.pc + 2)) (s.memory.cells (s.cpu.regs.pc + 1))

/-- The core with the program counter behind the instruction and its operand. -/
def past (s : Core FlatMemory) (o : Operand) : Core FlatMemory :=
  s.setPc (s.cpu.regs.pc + UInt16.ofNat (1 + o.length))

/-- Reading changes nothing. -/
lemma fetch_flat (s : Core FlatMemory) :
    s.fetch = (s.memory.cells s.cpu.regs.pc, s.setPc (s.cpu.regs.pc + 1)) := rfl

/-- Behind the opcode comes the operand. -/
lemma fetchOperand_flat (s : Core FlatMemory) (o : Operand) :
    (s.setPc (s.cpu.regs.pc + 1)).fetchOperand o = (s.immediate o, s.past o) := by
  have htwo : s.cpu.regs.pc + 1 + 1 = s.cpu.regs.pc + 2 := UInt16.add_assoc _ 1 1
  have hthree : s.cpu.regs.pc + 2 + 1 = s.cpu.regs.pc + 3 := UInt16.add_assoc _ 2 1
  cases o with
  | none => rfl
  | byte => exact congrArg (fun pc => (s.immediate .byte, s.setPc pc)) htwo
  | word =>
    have hfetch : (s.setPc (s.cpu.regs.pc + 1)).fetchOperand .word =
        (Word.join (s.memory.cells (s.cpu.regs.pc + 1 + 1)) (s.memory.cells (s.cpu.regs.pc + 1)),
          s.setPc (s.cpu.regs.pc + 1 + 1 + 1)) := rfl
    rw [hfetch, htwo, hthree]
    rfl

/-- A report goes nowhere. -/
lemma reportIllegal_flat (s : Core FlatMemory) (i : Instruction) (opcode : UInt8)
    (address : UInt16) : s.reportIllegal i opcode address = s := by
  cases i <;> rfl

/-- The report of a step goes nowhere. -/
lemma traceStep_flat (s : Core FlatMemory) (address : UInt16) (extended : Bool) (opcode : UInt8)
    (operand : UInt16) (cycles : UInt32) :
    s.traceStep address extended opcode operand cycles = s := by
  unfold traceStep
  split
  · rfl
  · rfl

/-- A running processor executes the instruction at the program counter. -/
lemma instruction_of_running (h : s.cpu.activity = .running) :
    s.instruction? = some (.decode (s.memory.cells s.cpu.regs.pc)) := by
  have hawake : (s.cpu.halted || s.cpu.stopped) = false := by
    unfold Processor.activity at h
    cases hhalted : s.cpu.halted <;> cases hstopped : s.cpu.stopped <;> simp_all
  simp only [instruction?, hawake]
  rfl

/-- A step executes the instruction at the program counter with the operand behind it, and lets a
delayed change of the master enable flag pass. -/
theorem step_of_instruction (h : s.instruction? = some i) (hi : i ≠ .extended) :
    s.step =
      let r := (s.past i.operand).execute i (s.immediate i.operand)
      (if r.2 then i.takenCycles else i.cycles, r.1.retireDelay) := by
  obtain ⟨hhalted, hstopped⟩ := awake_of_instruction h
  have hidle : ¬ (s.cpu.halted || s.cpu.stopped) = true := by simp [hhalted, hstopped]
  have hdecode : Instruction.decode (s.memory.cells s.cpu.regs.pc) = i := by
    unfold instruction? at h
    rw [if_neg hidle] at h
    exact Option.some.inj h
  have hopcode : s.memory.cells s.cpu.regs.pc ≠ extensionByte := by
    intro hext
    rw [hext, Instruction.decode_extensionByte] at hdecode
    exact hi hdecode.symm
  rw [step, if_neg hidle, stepRunning]
  simp only [fetch_flat, if_neg hopcode, hdecode, fetchOperand_flat, reportIllegal_flat,
    traceStep_flat]

/-- A step with an extended instruction executes what the byte behind the announcement asks for,
with the program counter behind both bytes. -/
theorem step_of_extended (h : s.cpu.activity = .running)
    (hopcode : s.memory.cells s.cpu.regs.pc = extensionByte) :
    s.step =
      let i := ExtendedInstruction.decode (s.memory.cells (s.cpu.regs.pc + 1))
      (i.cycles, ((s.past .byte).executeExtended i).retireDelay) := by
  obtain ⟨hhalted, hstopped⟩ := awake_of_instruction (instruction_of_running h)
  have hidle : ¬ (s.cpu.halted || s.cpu.stopped) = true := by simp [hhalted, hstopped]
  have htwo : s.cpu.regs.pc + 1 + 1 = s.cpu.regs.pc + 2 := UInt16.add_assoc _ 1 1
  have hpast : (s.setPc (s.cpu.regs.pc + 1)).setPc (s.cpu.regs.pc + 1 + 1) = s.past .byte := by
    rw [htwo]
    rfl
  rw [step, if_neg hidle, stepRunning]
  simp only [fetch_flat, if_pos hopcode, traceStep_flat]
  exact congrArg
    (fun t => (_, (executeExtended t _).retireDelay)) hpast

/-! ### Registers and memory -/

/-- The core after a step that has left certain registers and a certain memory, and in which a
delayed change of the master enable flag has passed. -/
def after (s : Core FlatMemory) (r : Registers) (m : FlatMemory) : Core FlatMemory :=
  ⟨{ s.cpu.retireDelay with regs := r }, m⟩

/-- Before the delayed change passes, registers and memory have been changed. -/
lemma retireDelay_eq_after (s : Core FlatMemory) (r : Registers) (m : FlatMemory) :
    retireDelay ⟨{ s.cpu with regs := r }, m⟩ = s.after r m :=
  congrArg (Core.mk · m) (Processor.retireDelay_regs _ _)

/-- A running processor runs on. -/
lemma activity_after (s : Core FlatMemory) (r : Registers) (m : FlatMemory) :
    (s.after r m).cpu.activity = s.cpu.activity :=
  s.cpu.activity_retireDelay

end Core

end Handheld
