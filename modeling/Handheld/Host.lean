import Handheld.Word

/-!
# What surrounds the console

A `Host` is what the console needs from outside: a screen, the other end of the link cable, a
player who presses `Buttons`, and someone who decides how long to go on.  Every request returns
the host that is left after it, so that an answer may depend on everything that was asked before.
-/

namespace Handheld

/-- The width of the screen in pixels. -/
def screenWidth : Nat := 160

/-- The height of the screen in pixels. -/
def screenHeight : Nat := 144

/-- The pressed buttons: right, left, up, down, A, B, Select and Start, from bit zero on. -/
structure Buttons where
  bits : UInt8
  deriving DecidableEq, Inhabited

namespace Buttons

/-- No button is pressed. -/
def none : Buttons := ⟨0⟩

/-- The directions as a nibble in which a pressed button is a zero. -/
def directionNibble (b : Buttons) : UInt8 :=
  ~~~b.bits &&& 0x0F

/-- The other buttons as a nibble in which a pressed button is a zero. -/
def actionNibble (b : Buttons) : UInt8 :=
  ~~~(b.bits >>> 4) &&& 0x0F

end Buttons

/-- The surroundings of the console. -/
class Host (η : Type) where
  /-- Show a pixel of a complete frame; shades go from zero, the lightest, to three. -/
  putPixel (host : η) (shade : UInt8) (x y : Nat) : η
  /-- The frame is complete. -/
  frameSync (host : η) : η
  /-- Exchange a byte with the other end of the link cable. -/
  exchange (host : η) (out : UInt8) : UInt8 × η
  /-- Look at the buttons. -/
  pollButtons (host : η) : Buttons × η
  /-- Ask whether to go on. -/
  pollContinue (host : η) : Bool × η

/-- Surroundings with nothing attached, in which the console runs forever. -/
structure Solitude where
  deriving DecidableEq, Inhabited

instance : Host Solitude where
  putPixel host _ _ _ := host
  frameSync host := host
  exchange host _ := (0xFF, host)
  pollButtons host := (Buttons.none, host)
  pollContinue host := (true, host)

end Handheld
