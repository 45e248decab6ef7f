import Handheld.Record
import Handheld.Registers

/-!
# The processor

A `Processor` is the register file, the interrupt master enable flag with its delay, and the two
ways of being idle.  Requests to change the master enable flag take effect late: `ImeDelay` counts
the steps that are left, `Processor.requestIme` arms or disarms it, and `Processor.retireDelay`
passes a step.
-/

namespace Handheld

/-- How far a change of the interrupt master enable flag has come. -/
inductive ImeDelay
  /-- No change is under way. -/
  | idle
  /-- A change was requested by the current step. -/
  | pending
  /-- The flag changes at the end of the current step. -/
  | due
  deriving DecidableEq, Inhabited

namespace ImeDelay

/-- The stage as a number. -/
def code : ImeDelay → UInt8
  | idle => 0
  | pending => 1
  | due => 2

/-- The stage with a given number. -/
def ofCode? (v : UInt8) : Option ImeDelay :=
  match v.toNat with
  | 0 => some idle
  | 1 => some pending
  | 2 => some due
  | _ => none

/-- Whether a change is under way. -/
def isArmed : ImeDelay → Bool
  | idle => false
  | _ => true

@[simp] theorem ofCode?_code (d : ImeDelay) : ofCode? d.code = some d := by
  cases d <;> rfl

end ImeDelay

/-- What a processor is doing. -/
inductive Activity
  | running
  | halted
  | stopped
  deriving DecidableEq

namespace Activity

/-- The name of an activity. -/
def name : Activity → String
  | running => "Running"
  | halted => "Halted"
  | stopped => "Stopped"

end Activity

/-- The state of the processor. -/
structure Processor where
  regs : Registers := {}
  /-- The interrupt master enable flag. -/
  ime : Bool := false
  delay : ImeDelay := .idle
  halted : Bool := false
  stopped : Bool := false
  /-- Whether every executed instruction is reported. -/
  trace : Bool := false
  deriving DecidableEq, Inhabited

namespace Processor

/-- The processor after the start-up program. -/
def postBoot : Processor :=
  { regs := Registers.postBoot }

/-- What the processor is doing. -/
def activity (p : Processor) : Activity :=
  if p.stopped then .stopped else if p.halted then .halted else .running

/-! ### The interrupt master enable flag -/

/-- Pass a step: a requested change becomes due, and a due one happens. -/
def retireDelay (p : Processor) : Processor :=
  match p.delay with
  | .idle => p
  | .pending => { p with delay := .due }
  | .due => { p with ime := !p.ime, delay := .idle }

/-- Where the flag is headed: its value once the change under way has happened. -/
def headed (p : Processor) : Bool :=
  p.ime ^^ p.delay.isArmed

/-- Ask for a value of the flag.  Nothing happens if it is headed there already; otherwise a change
is armed, or the one under way is called off. -/
def requestIme (p : Processor) (enable : Bool) : Processor :=
  if p.headed = enable then p
  else { p with delay := if p.delay.isArmed then .idle else .pending }

/-! ### Registers by name -/

/-- The value of a register; the interrupt registers are not part of the processor. -/
def register? (p : Processor) : RegisterId → Option UInt32
  | .a => some p.regs.a.toUInt32
  | .f => some p.regs.f.toByte.toUInt32
  | .b => some p.regs.b.toUInt32
  | .c => some p.regs.c.toUInt32
  | .d => some p.regs.d.toUInt32
  | .e => some p.regs.e.toUInt32
  | .h => some p.regs.h.toUInt32
  | .l => some p.regs.l.toUInt32
  | .af => some p.regs.af.toUInt32
  | .bc => some p.regs.bc.toUInt32
  | .de => some p.regs.de.toUInt32
  | .hl => some p.regs.hl.toUInt32
  | .pc => some p.regs.pc.toUInt32
  | .sp => some p.regs.sp.toUInt32
  | .ime => some p.ime.toUInt32
  | .halt => some p.halted.toUInt32
  | .stop => some p.stopped.toUInt32
  | .interruptEnable | .interruptRequest => none

/-- Store a value that fits into a register of the processor. -/
def store (p : Processor) (r : RegisterId) (v : UInt32) : Processor :=
  match r with
  | .a => { p with regs := { p.regs with a := v.toUInt8 } }
  | .f => { p with regs := { p.regs with f := Flags.ofByte v.toUInt8 } }
  | .b => { p with regs := { p.regs with b := v.toUInt8 } }
  | .c => { p with regs := { p.regs with c := v.toUInt8 } }
  | .d => { p with regs := { p.regs with d := v.toUInt8 } }
  | .e => { p with regs := { p.regs with e := v.toUInt8 } }
  | .h => { p with regs := { p.regs with h := v.toUInt8 } }
  | .l => { p with regs := { p.regs with l := v.toUInt8 } }
  | .af => { p with regs := p.regs.setAf v.toUInt16 }
  | .bc => { p with regs := p.regs.setBc v.toUInt16 }
  | .de => { p with regs := p.regs.setDe v.toUInt16 }
  | .hl => { p with regs := p.regs.setHl v.toUInt16 }
  | .pc => { p with regs := { p.regs with pc := v.toUInt16 } }
  | .sp => { p with regs := { p.regs with sp := v.toUInt16 } }
  | .ime => { p with ime := v != 0 }
  | .halt => { p with halted := v != 0 }
  | .stop => { p with stopped := v != 0 }
  | .interruptEnable | .interruptRequest => p

/-- Store a value into a register, unless it is too large or the register is not part of the
processor. -/
def setRegister? (p : Processor) (r : RegisterId) (v : UInt32) : Option Processor :=
  if v > r.maxValue ∨ r = .interruptEnable ∨ r = .interruptRequest then none
  else some (p.store r v)

/-! ### Saved form -/

/-- The saved form of the processor. -/
def record : Record Processor := [
  .half (·.regs.af) fun v p => { p with regs := p.regs.setAf v },
  .half (·.regs.bc) fun v p => { p with regs := p.regs.setBc v },
  .half (·.regs.de) fun v p => { p with regs := p.regs.setDe v },
  .half (·.regs.hl) fun v p => { p with regs := p.regs.setHl v },
  .half (·.regs.pc) fun v p => { p with regs := { p.regs with pc := v } },
  .half (·.regs.sp) fun v p => { p with regs := { p.regs with sp := v } },
  .flag (·.ime) fun v p => { p with ime := v },
  .coded .imeTransition (·.delay.code) fun v p =>
    (ImeDelay.ofCode? v).map fun d => { p with delay := d },
  .flag (·.halted) fun v p => { p with halted := v },
  .flag (·.stopped) fun v p => { p with stopped := v }]

@[simp] theorem headed_retireDelay (p : Processor) : p.retireDelay.headed = p.headed := by
  cases h : p.delay <;> simp [retireDelay, headed, h, ImeDelay.isArmed]

@[simp] theorem headed_requestIme (p : Processor) (enable : Bool) :
    (p.requestIme enable).headed = enable := by
  unfold requestIme
  split
  · assumption
  · cases h : p.delay <;> cases hi : p.ime <;> cases enable <;>
      simp_all [headed, ImeDelay.isArmed]

end Processor

end Handheld
