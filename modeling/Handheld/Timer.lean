import Handheld.Record
import Handheld.Word

/-!
# The timer

The timer divides the clock twice.  The divider is a sixteen-bit counter of cycles whose upper
byte programs can read; the counter proper, `tima`, counts periods that the control register `tac`
selects, and on overflow starts again from `tma` and asks for an interrupt.  `Timer.advance` lets
time pass, and tells whether there was an overflow.
-/

namespace Handheld

/-- The state of the timer. -/
structure Timer where
  /-- The counter. -/
  tima : UInt8 := 0
  /-- Where the counter starts again. -/
  tma : UInt8 := 0
  /-- The control register: bit two switches the counter on, the bits below select the period. -/
  tac : UInt8 := 0
  /-- All cycles, modulo `2 ^ 16`. -/
  divider : UInt16 := 0
  /-- The cycles since the last period of the counter. -/
  phase : UInt32 := 0
  deriving DecidableEq, Inhabited

namespace Timer

/-- The part of the divider that programs can read. -/
def div (t : Timer) : UInt8 := Word.high t.divider

/-- Whether the counter is on. -/
def running (t : Timer) : Bool := Byte.bit t.tac 2

/-- The cycles between two counts. -/
def period (t : Timer) : UInt32 :=
  match t.tac.toNat % 4 with
  | 0 => 1024
  | 1 => 16
  | 2 => 64
  | _ => 256

/-- Count `n` times from `tima`, starting again from `tma` after each overflow; `raised` becomes
true with the first overflow. -/
def count (tma : UInt8) : Nat → UInt8 → Bool → UInt8 × Bool
  | 0, tima, raised => (tima, raised)
  | n + 1, tima, raised =>
    if tima = 0xFF then count tma n tma true else count tma n (tima + 1) raised

/-- Let cycles pass.  The second component tells whether the counter overflowed. -/
def advance (t : Timer) (cycles : UInt32) : Timer × Bool :=
  let t := { t with divider := t.divider + cycles.toUInt16 }
  if t.running then
    let elapsed := t.phase + cycles
    let (tima, raised) := count t.tma (elapsed / t.period).toNat t.tima false
    ({ t with tima := tima, phase := elapsed % t.period }, raised)
  else (t, false)

/-- Read the register with a given low address byte. -/
def read (t : Timer) (r : UInt8) : UInt8 :=
  match r.toNat with
  | 0x04 => t.div
  | 0x05 => t.tima
  | 0x06 => t.tma
  | 0x07 => 0xF8 ||| t.tac
  | _ => 0xFF

/-- Write the register with a given low address byte.  Any write to the divider starts both counts
anew, and so does another choice of the period for the counter. -/
def write (t : Timer) (r v : UInt8) : Timer :=
  match r.toNat with
  | 0x04 => { t with divider := 0, phase := 0 }
  | 0x05 => { t with tima := v }
  | 0x06 => { t with tma := v }
  | 0x07 =>
    { t with
      phase := if v.toNat % 4 = t.tac.toNat % 4 then t.phase else 0
      tac := v &&& 0x07 }
  | _ => t

/-- The saved form of the timer. -/
def record : Record Timer := [
  .half (·.divider) fun v t => { t with divider := v },
  .word (·.phase) fun v t => { t with phase := v },
  .byte (·.tima) fun v t => { t with tima := v },
  .byte (·.tma) fun v t => { t with tma := v },
  .byte (·.tac) fun v t => { t with tac := v &&& 0x07 },
  .check .timerPhase fun t => t.phase < t.period]

theorem period_pos (t : Timer) : 0 < t.period := by
  unfold period
  split <;> decide

end Timer

end Handheld
