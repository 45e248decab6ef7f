import Handheld.Processor.Execute

/-!
# Steps of the processor

`Core.step` executes one instruction, or lets a little time pass if the processor is idle, and
returns the cost.  `Core.service` looks for a pending interrupt: the most urgent one is
acknowledged and wakes a halted processor, and if the master enable flag is set the processor goes
on at the vector of the source.
-/

namespace Handheld

/-- The cost of a step without an instruction. -/
def idleCycles : UInt32 := 4

/-- The cost of waking up from `halt`. -/
def wakeCycles : UInt32 := 4

/-- The cost of going to a vector. -/
def dispatchCycles : UInt32 := 20

/-- The byte that announces an extended instruction. -/
def extensionByte : UInt8 := 0xCB

namespace Core

variable {μ : Type} [Memory μ]

/-- Pass a step of the delayed change of the master enable flag. -/
def retireDelay (s : Core μ) : Core μ :=
  { s with cpu := s.cpu.retireDelay }

/-- Report an executed instruction, if the processor is traced. -/
def traceStep (s : Core μ) (address : UInt16) (extended : Bool) (opcode : UInt8)
    (operand : UInt16) (cycles : UInt32) : Core μ :=
  if s.cpu.trace then
    s.report (.executed {
      address := address
      extended := extended
      opcode := opcode
      operand := operand
      cycles := cycles
      registers := s.cpu.regs })
  else s

/-- Report an opcode without a meaning. -/
def reportIllegal (s : Core μ) (i : Instruction) (opcode : UInt8) (address : UInt16) : Core μ :=
  match i with
  | .illegal => s.report (.illegalOpcode opcode address)
  | _ => s

/-- Execute the instruction at the program counter. -/
def stepRunning (s : Core μ) : UInt32 × Core μ :=
  let address := s.cpu.regs.pc
  let (opcode, s) := s.fetch
  if opcode = extensionByte then
    let (opcode, s) := s.fetch
    let i := ExtendedInstruction.decode opcode
    let s := (s.executeExtended i).retireDelay
    (i.cycles, s.traceStep address true opcode 0 i.cycles)
  else
    let i := Instruction.decode opcode
    let (operand, s) := s.fetchOperand i.operand
    let s := s.reportIllegal i opcode address
    let (s, taken) := s.execute i operand
    let s := s.retireDelay
    let cycles := if taken then i.takenCycles else i.cycles
    (cycles, s.traceStep address false opcode operand cycles)

/-- Execute one instruction, or idle, and return the cost. -/
def step (s : Core μ) : UInt32 × Core μ :=
  if s.cpu.halted || s.cpu.stopped then (idleCycles, s) else s.stepRunning

/-- Go to the vector of a source. -/
def dispatch (s : Core μ) (source : Source) : Core μ :=
  let s := { s with cpu := { s.cpu with ime := false } }
  s.callTo source.vector

/-- Serve the most urgent pending interrupt, and return the cost. -/
def service (s : Core μ) : UInt32 × Core μ :=
  match s with
  | ⟨cpu, memory⟩ =>
    let controller := Memory.controller memory
    match controller.pending.first? with
    | none => (0, ⟨cpu, memory⟩)
    | some source =>
      let memory := Memory.setController memory (controller.acknowledge source)
      let wake := if cpu.halted then wakeCycles else 0
      let s : Core μ := ⟨{ cpu with halted := false }, memory⟩
      if s.cpu.ime then (wake + dispatchCycles, s.dispatch source) else (wake, s)

end Core

end Handheld
