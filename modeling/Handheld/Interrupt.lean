import Handheld.Record
import Handheld.Word

/-!
# Interrupts

Five `Source`s can interrupt the processor; `Sources` is a set of them.  The
`InterruptController` holds which sources are enabled and which are requested.  As bytes, source
`i` of the priority order is bit `i`: the enable register keeps its three upper bits as they were
written, and the request register reads them as ones.
-/

namespace Handheld

/-- What can interrupt the processor, the most urgent source first. -/
inductive Source
  | vblank
  | stat
  | timer
  | serial
  | joypad
  deriving DecidableEq

namespace Source

/-- The place of a source in the priority order, which is also its bit in the registers. -/
def index : Source → Nat
  | vblank => 0
  | stat => 1
  | timer => 2
  | serial => 3
  | joypad => 4

/-- Every source, the most urgent first. -/
def all : List Source := [vblank, stat, timer, serial, joypad]

/-- The address at which the processor handles a source. -/
def vector : Source → UInt16
  | vblank => 0x40
  | stat => 0x48
  | timer => 0x50
  | serial => 0x58
  | joypad => 0x60

end Source

/-- A set of interrupt sources. -/
structure Sources where
  vblank : Bool := false
  stat : Bool := false
  timer : Bool := false
  serial : Bool := false
  joypad : Bool := false
  deriving DecidableEq, Inhabited

namespace Sources

/-- Whether a source belongs to the set. -/
def contains (s : Sources) : Source → Bool
  | .vblank => s.vblank
  | .stat => s.stat
  | .timer => s.timer
  | .serial => s.serial
  | .joypad => s.joypad

/-- The sources in either set. -/
def union (s t : Sources) : Sources where
  vblank := s.vblank || t.vblank
  stat := s.stat || t.stat
  timer := s.timer || t.timer
  serial := s.serial || t.serial
  joypad := s.joypad || t.joypad

/-- The sources in both sets. -/
def inter (s t : Sources) : Sources where
  vblank := s.vblank && t.vblank
  stat := s.stat && t.stat
  timer := s.timer && t.timer
  serial := s.serial && t.serial
  joypad := s.joypad && t.joypad

/-- The sources of `s` that are not in `t`. -/
def diff (s t : Sources) : Sources where
  vblank := s.vblank && !t.vblank
  stat := s.stat && !t.stat
  timer := s.timer && !t.timer
  serial := s.serial && !t.serial
  joypad := s.joypad && !t.joypad

/-- The set with one member if `on` holds, and the empty set otherwise. -/
def single (source : Source) (on : Bool) : Sources :=
  match source with
  | .vblank => { vblank := on }
  | .stat => { stat := on }
  | .timer => { timer := on }
  | .serial => { serial := on }
  | .joypad => { joypad := on }

/-- The set without one source. -/
def erase (s : Sources) : Source → Sources
  | .vblank => { s with vblank := false }
  | .stat => { s with stat := false }
  | .timer => { s with timer := false }
  | .serial => { s with serial := false }
  | .joypad => { s with joypad := false }

/-- The most urgent member. -/
def first? (s : Sources) : Option Source :=
  Source.all.find? s.contains

/-- The set whose members are the low five bits of a byte. -/
def ofByte (b : UInt8) : Sources where
  vblank := Byte.bit b 0
  stat := Byte.bit b 1
  timer := Byte.bit b 2
  serial := Byte.bit b 3
  joypad := Byte.bit b 4

/-- The members as the low five bits of a byte. -/
def toByte (s : Sources) : UInt8 :=
  Byte.ofBit 0 s.vblank ||| Byte.ofBit 1 s.stat ||| Byte.ofBit 2 s.timer |||
    Byte.ofBit 3 s.serial ||| Byte.ofBit 4 s.joypad

@[simp] theorem ofByte_toByte (s : Sources) : ofByte s.toByte = s := by
  rcases s with ⟨_ | _, _ | _, _ | _, _ | _, _ | _⟩ <;> decide

@[simp] theorem contains_union (s t : Sources) (x : Source) :
    (s.union t).contains x = (s.contains x || t.contains x) := by
  cases x <;> rfl

@[simp] theorem contains_inter (s t : Sources) (x : Source) :
    (s.inter t).contains x = (s.contains x && t.contains x) := by
  cases x <;> rfl

@[simp] theorem contains_erase (s : Sources) (x y : Source) :
    (s.erase x).contains y = (s.contains y && !decide (x = y)) := by
  cases x <;> cases y <;> simp [erase, contains]

end Sources

/-- Which sources may interrupt the processor, and which ask for it. -/
structure InterruptController where
  enabled : Sources := {}
  requested : Sources := {}
  /-- The upper three bits of the enable register, stored but without effect. -/
  enableUpper : UInt8 := 0
  deriving DecidableEq, Inhabited

namespace InterruptController

/-- Add to the requested sources. -/
def raise (c : InterruptController) (s : Sources) : InterruptController :=
  { c with requested := c.requested.union s }

/-- Withdraw the requests of some sources. -/
def clear (c : InterruptController) (s : Sources) : InterruptController :=
  { c with requested := c.requested.diff s }

/-- Withdraw the request of one source. -/
def acknowledge (c : InterruptController) (s : Source) : InterruptController :=
  { c with requested := c.requested.erase s }

/-- The sources that are both enabled and requested. -/
def pending (c : InterruptController) : Sources :=
  c.enabled.inter c.requested

/-- The request register; its upper three bits read as ones. -/
def readRequest (c : InterruptController) : UInt8 :=
  0xE0 ||| c.requested.toByte

/-- Replace the requested sources. -/
def writeRequest (c : InterruptController) (v : UInt8) : InterruptController :=
  { c with requested := Sources.ofByte v }

/-- The enable register. -/
def readEnable (c : InterruptController) : UInt8 :=
  c.enableUpper ||| c.enabled.toByte

/-- Replace the enabled sources and the idle upper bits. -/
def writeEnable (c : InterruptController) (v : UInt8) : InterruptController :=
  { c with enabled := Sources.ofByte v, enableUpper := v &&& 0xE0 }

/-- The saved form of the interrupt controller; the idle bits of the request register are saved as
zeros. -/
def record : Record InterruptController := [
  .byte readEnable fun v c => c.writeEnable v,
  .byte (·.requested.toByte) fun v c => c.writeRequest v]

end InterruptController

end Handheld
