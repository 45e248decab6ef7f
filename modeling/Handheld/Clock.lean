import Handheld.Record

/-!
# The clock

The `Clock` counts all cycles since the cartridge was inserted.  As long as the display stays on,
`Clock.frames` is the number of completed frames and `Clock.scanline` the current line.
-/

namespace Handheld

/-- The cycles that a line takes. -/
def lineCycles : Nat := 456

/-- The lines of a frame, on the screen and below it. -/
def frameLines : Nat := 154

/-- The cycles that a frame takes. -/
def frameCycles : Nat := lineCycles * frameLines

/-- A count of cycles, modulo `2 ^ 64`. -/
structure Clock where
  cycles : UInt64 := 0
  deriving DecidableEq, Inhabited

namespace Clock

/-- Count cycles. -/
def tick (c : Clock) (cycles : UInt32) : Clock :=
  { c with cycles := c.cycles + cycles.toUInt64 }

/-- The number of whole frames. -/
def frames (c : Clock) : Nat :=
  c.cycles.toNat / frameCycles

/-- The line of the current frame. -/
def scanline (c : Clock) : Nat :=
  c.cycles.toNat % frameCycles / lineCycles

/-- The saved form of the clock. -/
def record : Record Clock := [.long (·.cycles) fun v c => { c with cycles := v }]

end Clock

end Handheld
