import Handheld.Processor.Step
import Mathlib.Tactic.Lemma

/-!
# The processor apart from its registers

`Processor.control` forgets the registers of a processor and keeps the rest: the master enable flag
with its delay, the two ways of being idle, and whether the processor is traced.  Few instructions
touch this part, and `Instruction.govern` says how.  The main statements are
`Core.control_execute`, that executing an instruction governs the control part and nothing else,
and `Core.control_step` and `Core.control_service`, which follow it through a step and through the
search for an interrupt.

`Core.instruction?` is the instruction that a step executes, if it executes one, and
`Core.dispatched?` is the interrupt source that a search dispatches, if it dispatches one.
`Core.macroStep` is one after the other, and `Core.executing?` is the address of the instruction
that it executes.
-/

namespace Handheld

/-- A processor whose registers are forgotten. -/
def Processor.control (p : Processor) : Processor :=
  { p with regs := {} }

namespace Processor

@[simp] lemma control_ime (p : Processor) : p.control.ime = p.ime := rfl

@[simp] lemma control_delay (p : Processor) : p.control.delay = p.delay := rfl

@[simp] lemma control_halted (p : Processor) : p.control.halted = p.halted := rfl

@[simp] lemma control_stopped (p : Processor) : p.control.stopped = p.stopped := rfl

@[simp] lemma control_trace (p : Processor) : p.control.trace = p.trace := rfl

@[simp] lemma control_headed (p : Processor) : p.control.headed = p.headed := rfl

/-- A delayed change passes a step whatever the registers are. -/
lemma control_retireDelay (p : Processor) : p.retireDelay.control = p.control.retireDelay := by
  cases h : p.delay <;> simp [retireDelay, control, h]

/-- A request to change the flag has its effect whatever the registers are. -/
lemma control_requestIme (p : Processor) (enable : Bool) :
    (p.requestIme enable).control = p.control.requestIme enable := by
  unfold requestIme
  rw [control_headed]
  split
  · rfl
  · rfl

end Processor

/-- What an instruction does to a processor besides its registers. -/
def Instruction.govern (i : Instruction) (p : Processor) : Processor :=
  match i with
  | stop => { p with stopped := true }
  | halt => { p with halted := true }
  | reti => { p with ime := true }
  | disableInterrupts => p.requestIme false
  | enableInterrupts => p.requestIme true
  | _ => p

/-- No instruction begins or ends the tracing of a processor. -/
lemma Instruction.trace_govern (i : Instruction) (p : Processor) :
    (i.govern p).trace = p.trace := by
  cases i with
  | disableInterrupts | enableInterrupts =>
    simp only [govern, Processor.requestIme]
    split
    · rfl
    · rfl
  | _ => rfl

/-- The byte that announces an extended instruction does not govern anything itself. -/
lemma Instruction.decode_extensionByte : decode extensionByte = .extended := by
  decide

namespace Core

variable {μ : Type} [Memory μ]

/-! ### Instructions -/

omit [Memory μ] in
/-- Putting a word into a pair changes registers only. -/
lemma control_setPair (s : Core μ) (r : Pair) (v : UInt16) :
    (s.setPair r v).cpu.control = s.cpu.control := by
  cases r <;> rfl

omit [Memory μ] in
/-- Putting a word into a pair of the stack instructions changes registers only. -/
lemma control_setStackPair (s : Core μ) (r : StackPair) (v : UInt16) :
    (s.setStackPair r v).cpu.control = s.cpu.control := by
  cases r <;> rfl

omit [Memory μ] in
/-- Having used a pointer changes registers only. -/
lemma control_advance (s : Core μ) (p : Pointer) : (s.advance p).cpu.control = s.cpu.control := by
  cases p <;> rfl

/-- Putting a byte into a place changes registers and memory only. -/
lemma control_store (s : Core μ) (r : Place) (v : UInt8) :
    (s.store r v).cpu.control = s.cpu.control := by
  cases r <;> rfl

/-- Looking at a place leaves the processor as it is. -/
lemma cpu_load (s : Core μ) (r : Place) : (s.load r).2.cpu = s.cpu := by
  cases r <;> rfl

/-- Fetching an operand changes registers only. -/
lemma control_fetchOperand (s : Core μ) (o : Operand) :
    (s.fetchOperand o).2.cpu.control = s.cpu.control := by
  cases o <;> rfl

omit [Memory μ] in
/-- A conditional act that changes registers and memory only. -/
lemma control_when (s : Core μ) (cond : Condition) {act : Core μ → Core μ}
    (h : (act s).cpu.control = s.cpu.control) :
    (s.when cond act).1.cpu.control = s.cpu.control := by
  unfold Core.when
  split
  · exact h
  · rfl

/-- Executing an instruction governs the processor, and changes registers and memory besides. -/
theorem control_execute (s : Core μ) (i : Instruction) (operand : UInt16) :
    (s.execute i operand).1.cpu.control = i.govern s.cpu.control := by
  cases i with
  | loadPair r | incPair r | decPair r => exact control_setPair ..
  | storeA p | loadA p => exact control_advance ..
  | inc r | dec r =>
    have hload : (s.load r).2.cpu.control = s.cpu.control := congrArg _ (cpu_load s r)
    exact (control_store ..).trans hload
  | loadOperand r => exact control_store ..
  | load target source =>
    have hload : (s.load source).2.cpu.control = s.cpu.control := congrArg _ (cpu_load s source)
    exact (control_store ..).trans hload
  | alu op source =>
    have hload : (s.load source).2.cpu.control = s.cpu.control := congrArg _ (cpu_load s source)
    exact hload
  | jumpRelative cond | jump cond | call cond | ret cond => exact control_when s cond rfl
  | pop r => exact control_setStackPair ..
  | disableInterrupts | enableInterrupts => exact Processor.control_requestIme ..
  | _ => rfl

/-- Executing an extended instruction changes registers and memory only. -/
lemma control_executeExtended (s : Core μ) (i : ExtendedInstruction) :
    (s.executeExtended i).cpu.control = s.cpu.control := by
  have hload : (s.load i.place).2.cpu.control = s.cpu.control := congrArg _ (cpu_load s i.place)
  cases i with
  | shift op r => exact (control_store ..).trans hload
  | test bit r => exact hload
  | reset bit r => exact (control_store ..).trans hload
  | set bit r => exact (control_store ..).trans hload

/-! ### Steps -/

/-- The instruction that a step executes, unless the processor is idle. -/
def instruction? (s : Core μ) : Option Instruction :=
  if s.cpu.halted || s.cpu.stopped then none
  else some (.decode (Memory.read s.memory s.cpu.regs.pc).1)

/-- Reporting a step leaves the processor as it is. -/
lemma cpu_traceStep (s : Core μ) (address : UInt16) (extended : Bool) (opcode : UInt8)
    (operand : UInt16) (cycles : UInt32) :
    (s.traceStep address extended opcode operand cycles).cpu = s.cpu := by
  unfold traceStep
  split
  · rfl
  · rfl

/-- Reporting an opcode without a meaning leaves the processor as it is. -/
lemma cpu_reportIllegal (s : Core μ) (i : Instruction) (opcode : UInt8) (address : UInt16) :
    (s.reportIllegal i opcode address).cpu = s.cpu := by
  cases i <;> rfl

/-- A step of a processor that is not idle governs it by the instruction at the program counter,
and then lets a delayed change pass a step. -/
lemma control_stepRunning (s : Core μ) :
    s.stepRunning.2.cpu.control =
      ((Instruction.decode (Memory.read s.memory s.cpu.regs.pc).1).govern
        s.cpu.control).retireDelay := by
  have hfetch : s.fetch.2.cpu.control = s.cpu.control := rfl
  have hopcode : s.fetch.1 = (Memory.read s.memory s.cpu.regs.pc).1 := rfl
  unfold stepRunning
  simp only [hopcode]
  split
  · rename_i h
    rw [cpu_traceStep, h, Instruction.decode_extensionByte]
    refine (Processor.control_retireDelay _).trans (congrArg _ ?_)
    rw [control_executeExtended]
    rfl
  · rw [cpu_traceStep]
    refine (Processor.control_retireDelay _).trans (congrArg _ ?_)
    rw [control_execute, cpu_reportIllegal, control_fetchOperand, hfetch]

/-- A processor that executes an instruction is not idle. -/
lemma awake_of_instruction {s : Core μ} {i : Instruction} (h : s.instruction? = some i) :
    s.cpu.halted = false ∧ s.cpu.stopped = false := by
  unfold instruction? at h
  split at h
  · cases h
  · rename_i hidle
    simpa using hidle

/-- An idle processor stays as it is. -/
lemma step_of_idle {s : Core μ} (h : s.instruction? = none) : s.step.2 = s := by
  unfold instruction? at h
  unfold step
  split at h
  · rename_i hidle
    rw [if_pos hidle]
  · cases h

/-- A halted processor lets a little time pass. -/
lemma step_of_halted {s : Core μ} (h : s.cpu.halted = true) : s.step = (idleCycles, s) := by
  rw [step, h, Bool.true_or, if_pos rfl]

/-- What a step does to a processor besides its registers, if it executes an instruction. -/
theorem control_step {s : Core μ} {i : Instruction} (h : s.instruction? = some i) :
    s.step.2.cpu.control = (i.govern s.cpu.control).retireDelay := by
  unfold instruction? at h
  unfold step
  split at h
  · cases h
  · rename_i hidle
    obtain rfl := Option.some.inj h
    rw [if_neg hidle]
    exact control_stepRunning s

/-- A step does not begin or end the tracing of a processor. -/
lemma trace_step (s : Core μ) : s.step.2.cpu.trace = s.cpu.trace := by
  cases h : s.instruction? with
  | none => rw [step_of_idle h]
  | some i =>
    have hretire : ∀ p : Processor, p.retireDelay.trace = p.trace := by
      intro p
      cases hdelay : p.delay <;> simp [Processor.retireDelay, hdelay]
    rw [← Processor.control_trace, control_step h, hretire, Instruction.trace_govern,
      Processor.control_trace]

/-! ### Interrupts -/

/-- The source that the search for an interrupt dispatches, if it dispatches one. -/
def dispatched? (s : Core μ) : Option Source :=
  if s.cpu.ime then (Memory.controller s.memory).pending.first? else none

/-- Nothing is dispatched while the master enable flag is clear. -/
lemma dispatched?_of_masked {s : Core μ} (h : s.cpu.ime = false) : s.dispatched? = none := by
  simp [dispatched?, h]

/-- The flag is set where something is dispatched. -/
lemma ime_of_dispatched {s : Core μ} {x : Source} (h : s.dispatched? = some x) :
    s.cpu.ime = true := by
  cases hime : s.cpu.ime with
  | true => rfl
  | false =>
    rw [dispatched?_of_masked hime] at h
    cases h

/-- If nothing is pending, the search for an interrupt costs nothing and does nothing. -/
lemma service_of_not_pending {s : Core μ}
    (h : (Memory.controller s.memory).pending.first? = none) : s.service = (0, s) := by
  simp only [service, h]

/-- A dispatch goes to the vector of its source, and a search without a dispatch goes nowhere. -/
lemma pc_service (s : Core μ) :
    s.service.2.cpu.regs.pc = (s.dispatched?.map Source.vector).getD s.cpu.regs.pc := by
  obtain ⟨p, m⟩ := s
  unfold service dispatched?
  cases hx : (Memory.controller m).pending.first? with
  | none => cases hp : p.ime <;> simp [hx]
  | some x =>
    simp only [hx]
    split
    · rfl
    · rfl

/-- What the search for an interrupt does to a processor besides its registers: a pending source
wakes it up, and a dispatch clears the master enable flag. -/
theorem control_service (s : Core μ) :
    s.service.2.cpu.control = { s.cpu.control with
      ime := s.cpu.ime && s.dispatched?.isNone
      halted := s.cpu.halted && (Memory.controller s.memory).pending.first?.isNone } := by
  obtain ⟨p, m⟩ := s
  unfold service dispatched?
  cases hx : (Memory.controller m).pending.first? with
  | none => simp [Processor.control, hx]
  | some x =>
    simp only [hx]
    split
    · simp [Processor.control, dispatch, callTo, push, setPc, setSp, withRegs, write]
    · rename_i hime
      simp only [Bool.not_eq_true] at hime
      simp [Processor.control, hime]

/-- The search for an interrupt does not begin or end the tracing of a processor. -/
lemma trace_service (s : Core μ) : s.service.2.cpu.trace = s.cpu.trace := by
  rw [← Processor.control_trace, control_service]
  rfl

/-- The search for an interrupt does not begin or end `stop`. -/
lemma stopped_service (s : Core μ) : s.service.2.cpu.stopped = s.cpu.stopped := by
  rw [← Processor.control_stopped, control_service]
  rfl

/-! ### Macro-steps -/

/-- Look for an interrupt and take a step. -/
def macroStep (s : Core μ) : Core μ := s.service.2.step.2

/-- The address of the instruction that a macro-step executes, unless it idles. -/
def executing? (s : Core μ) : Option UInt16 :=
  let t := s.service.2
  if t.cpu.halted || t.cpu.stopped then none else some t.cpu.regs.pc

/-- The instruction of a macro-step is the one at its address. -/
lemma instruction_of_executing (s : Core μ) :
    s.service.2.instruction? =
      s.executing?.map fun a => .decode (Memory.read s.service.2.memory a).1 := by
  unfold instruction? executing?
  simp only
  split
  · rfl
  · rfl

/-- After a dispatch the macro-step executes the instruction at the vector, unless the processor is
stopped. -/
lemma executing_of_dispatched {s : Core μ} {x : Source} (h : s.dispatched? = some x) :
    s.executing? = if s.cpu.stopped then none else some x.vector := by
  have hfirst : (Memory.controller s.memory).pending.first? = some x := by
    simpa [dispatched?, ime_of_dispatched h] using h
  have hhalted : s.service.2.cpu.halted = false := by
    rw [← Processor.control_halted, control_service]
    simp [hfirst]
  have hpc : s.service.2.cpu.regs.pc = x.vector := by
    rw [pc_service, h]
    rfl
  simp only [executing?, hhalted, stopped_service, hpc, Bool.false_or]

/-- Without a dispatch the macro-step executes the instruction at the program counter, if it
executes one. -/
lemma executing_of_not_dispatched {s : Core μ} {a : UInt16} (h : s.dispatched? = none)
    (ha : s.executing? = some a) : a = s.cpu.regs.pc := by
  simp only [executing?, pc_service, h, Option.map_none, Option.getD_none,
    Option.ite_none_left_eq_some] at ha
  exact (Option.some.inj ha.2).symm

end Core

end Handheld
