import Handheld.Host

/-!
# Frames

A `Frame` is a complete picture: the shades of all pixels, line by line.  `Frame.toList` and
`Frame.ofArray` go over to bytes and back, `Frame.present` hands a frame to the host pixel by pixel,
and `Frame.textRow` draws a line with characters.
-/

namespace Handheld

/-- A line of a frame: the shades of its pixels from left to right. -/
abbrev Row := Vector UInt8 160

/-- The lines of a frame from top to bottom. -/
abbrev Frame := Vector Row 144

namespace Frame

/-- A frame in the lightest shade. -/
def blank : Frame := Vector.replicate 144 (Vector.replicate 160 0)

/-- The shades of a frame, line by line. -/
def toList (f : Frame) : List UInt8 := f.flatten.toList

/-- How many pixels a frame has. -/
def size : Nat := 144 * 160

/-- The frame with the given shades; what is missing is in the lightest shade. -/
def ofArray (shades : Array UInt8) : Frame :=
  Vector.ofFn fun y => Vector.ofFn fun x => shades.getD (160 * y.val + x.val) 0

/-- Hand a frame to the host: every pixel once, line by line, and then the signal that the frame is
complete. -/
def present {η : Type} [Host η] (f : Frame) (host : η) : η :=
  Host.frameSync <|
    Fin.foldl 144
      (fun host y =>
        Fin.foldl 160 (fun host x => Host.putPixel host ((f.get y).get x) x.val y.val) host)
      host

/-- The character for a shade. -/
def shadeChar (shade : UInt8) : Char :=
  match shade.toNat with
  | 0 => '.'
  | 1 => '+'
  | 2 => '#'
  | _ => '@'

/-- A line of a frame as characters. -/
def textRow (r : Row) : List Char :=
  r.toList.map shadeChar

/-- A frame as text; a line of text stands for two lines of the frame and shows the upper one. -/
def text (f : Frame) : String :=
  String.ofList <|
    (List.finRange 72).flatMap fun (i : Fin 72) =>
      have : 2 * i.val < 144 := by omega
      textRow f[2 * i.val] ++ ['\n']

end Frame

end Handheld
