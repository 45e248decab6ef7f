import Handheld.Host
import Handheld.Record

/-!
# The serial link

The serial link exchanges one byte with the other end of the link cable.  Whoever has the clock
drives the exchange: with the internal clock, `Serial.advance` sends a bit every `bitCycles`
cycles and exchanges the byte with the host after the eighth; with the external clock, nothing
happens until `Serial.receive?` delivers a byte from outside.
-/

namespace Handheld

/-- The state of the serial link. -/
structure Serial where
  /-- The byte to send, and later the byte that was received. -/
  sb : UInt8 := 0
  /-- The control register: bit seven while an exchange is under way, bit zero for the internal
  clock. -/
  sc : UInt8 := 0
  /-- The cycles since the last bit. -/
  phase : UInt32 := 0
  /-- The bits that have been sent. -/
  bits : UInt8 := 0
  deriving DecidableEq, Inhabited

namespace Serial

/-- The cycles that a bit takes. -/
def bitCycles : UInt32 := 512

/-- Whether an exchange is under way. -/
def transferring (s : Serial) : Bool := Byte.bit s.sc 7

/-- Whether this side has the clock. -/
def internalClock (s : Serial) : Bool := Byte.bit s.sc 0

/-- Whether this side drives an exchange. -/
def driving (s : Serial) : Bool := s.transferring && s.internalClock

/-- Read the register with a given low address byte. -/
def read (s : Serial) (r : UInt8) : UInt8 :=
  match r.toNat with
  | 0x01 => s.sb
  | 0x02 => 0x7E ||| s.sc
  | _ => 0xFF

/-- Write the register with a given low address byte; a write to the control register starts
anew. -/
def write (s : Serial) (r v : UInt8) : Serial :=
  match r.toNat with
  | 0x01 => { s with sb := v }
  | 0x02 => { s with sc := v &&& 0x81, phase := 0, bits := 0 }
  | _ => s

/-- End an exchange. -/
def finish (s : Serial) (incoming : UInt8) : Serial :=
  { s with sb := incoming, sc := s.sc &&& 0x7F, phase := 0, bits := 0 }

/-- Let cycles pass.  The last component tells whether an exchange ended. -/
def advance {η : Type} [Host η] (s : Serial) (cycles : UInt32) (host : η) : Serial × η × Bool :=
  if s.transferring && s.internalClock then
    let elapsed := s.phase + cycles
    let bits := s.bits.toNat + (elapsed / bitCycles).toNat
    if bits < 8 then
      ({ s with phase := elapsed % bitCycles, bits := UInt8.ofNat bits }, host, false)
    else
      let (incoming, host) := Host.exchange host s.sb
      (s.finish incoming, host, true)
  else (s, host, false)

/-- A byte arrives from the other end, which has the clock.  If it was waited for, the
exchange ends, and the byte that was sent is returned. -/
def receive? (s : Serial) (incoming : UInt8) : Option (UInt8 × Serial) :=
  if s.transferring && !s.internalClock then some (s.sb, s.finish incoming) else none

/-- The saved form of the serial link. -/
def record : Record Serial := [
  .word (·.phase) fun v s => { s with phase := v },
  .byte (·.bits) fun v s => { s with bits := v &&& 0x07 },
  .byte (·.sb) fun v s => { s with sb := v },
  .byte (·.sc) fun v s => { s with sc := v &&& 0x81 },
  .check .serialPhase fun s => s.phase < bitCycles]

end Serial

end Handheld
