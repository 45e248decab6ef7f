import Handheld.Word

/-!
# Drawing a line

A line of the screen is drawn pixel by pixel from the video memory, the sprite memory and the
drawing registers.  `Drawing.layerColour` is the colour number of the background or, where the
window covers it, of the window.  `Drawing.sprites` are the first ten sprites that touch the line,
and `Drawing.frontmost?` picks among those that show a colour at a pixel.  `Drawing.shade` puts
both together, and `Drawing.row` draws the whole line.
-/

namespace Handheld

/-- An entry of the sprite memory. -/
structure Sprite where
  /-- The line below which the sprite begins, sixteen more than on the screen. -/
  y : UInt8
  /-- The column at which the sprite begins, eight more than on the screen. -/
  x : UInt8
  tile : UInt8
  flags : UInt8
  deriving DecidableEq, Inhabited

namespace Sprite

/-- The sprite with a given number. -/
def ofMemory (oam : Vector UInt8 0xA0) (i : Fin 40) : Sprite where
  y := oam[4 * i.val]
  x := oam[4 * i.val + 1]
  tile := oam[4 * i.val + 2]
  flags := oam[4 * i.val + 3]

/-- The first line of the sprite on the screen. -/
def screenY (s : Sprite) : Int := (s.y.toNat : Int) - 16

/-- The first column of the sprite on the screen. -/
def screenX (s : Sprite) : Int := (s.x.toNat : Int) - 8

/-- Whether the colours of the background and the window cover the sprite. -/
def behind (s : Sprite) : Bool := Byte.bit s.flags 7

/-- Whether the sprite is upside down. -/
def flipY (s : Sprite) : Bool := Byte.bit s.flags 6

/-- Whether left and right of the sprite are exchanged. -/
def flipX (s : Sprite) : Bool := Byte.bit s.flags 5

/-- Which of the two sprite palettes the sprite uses. -/
def palette (s : Sprite) : UInt8 := (s.flags >>> 4) &&& 1

/-- Whether a sprite of a given height touches a line. -/
def touches (s : Sprite) (height line : Nat) : Bool :=
  s.y.toNat ≤ line + 16 && line + 16 < s.y.toNat + height

end Sprite

/-- The registers and the memory that a line is drawn from. -/
structure Drawing where
  /-- The control register. -/
  control : UInt8
  scrollY : UInt8
  scrollX : UInt8
  windowY : UInt8
  windowX : UInt8
  /-- The palette of the background and the window. -/
  background : UInt8
  /-- The two palettes of the sprites. -/
  object0 : UInt8
  object1 : UInt8
  /-- The line of the screen. -/
  line : Nat
  /-- The line of the window that comes next. -/
  windowLine : UInt8
  video : Vector UInt8 0x2000
  oam : Vector UInt8 0xA0

namespace Drawing

/-! ### The control register -/

/-- Whether the background and the window are drawn. -/
def backgroundOn (d : Drawing) : Bool := Byte.bit d.control 0

/-- Whether sprites are drawn. -/
def spritesOn (d : Drawing) : Bool := Byte.bit d.control 1

/-- The height of a sprite. -/
def spriteHeight (d : Drawing) : Nat := if Byte.bit d.control 2 then 16 else 8

/-- Where the tile map of the background starts. -/
def backgroundMap (d : Drawing) : Nat := if Byte.bit d.control 3 then 0x1C00 else 0x1800

/-- Whether tile numbers count from the start of the video memory. -/
def unsignedTiles (d : Drawing) : Bool := Byte.bit d.control 4

/-- Whether the window is switched on. -/
def windowOn (d : Drawing) : Bool := Byte.bit d.control 5

/-- Where the tile map of the window starts. -/
def windowMap (d : Drawing) : Nat := if Byte.bit d.control 6 then 0x1C00 else 0x1800

/-! ### Tiles -/

/-- The byte of the video memory at an offset. -/
def videoByte (d : Drawing) (i : Nat) : UInt8 :=
  d.video[i]?.getD 0xFF

/-- The colour number that two bit planes have in one column, counted from the left. -/
def planeColour (low high : UInt8) (column : Nat) : UInt8 :=
  Byte.ofBit 1 (Byte.bit high (7 - column)) ||| Byte.ofBit 0 (Byte.bit low (7 - column))

/-- The colour number in a row of a tile whose data start at an offset. -/
def tileColour (d : Drawing) (offset row column : Nat) : UInt8 :=
  planeColour (d.videoByte (offset + 2 * row)) (d.videoByte (offset + 2 * row + 1)) column

/-- Where the data of a tile of the background or the window start: tiles are sixteen bytes long,
and their numbers count from `0x0000` or, as signed numbers, from `0x1000`. -/
def tileOffset (d : Drawing) (tile : UInt8) : Nat :=
  if d.unsignedTiles || tile ≥ 0x80 then 16 * tile.toNat else 0x1000 + 16 * tile.toNat

/-- The colour number at a point of a tile map of 32 by 32 tiles. -/
def mapColour (d : Drawing) (map x y : Nat) : UInt8 :=
  let tile := d.videoByte (map + 32 * (y / 8) + x / 8)
  d.tileColour (d.tileOffset tile) (y % 8) (x % 8)

/-! ### Background and window -/

/-- Whether the line shows the window. -/
def showsWindow (d : Drawing) : Bool :=
  d.backgroundOn && d.windowOn && d.windowY.toNat ≤ d.line && d.windowX.toNat < 167

/-- Whether the window covers a column; its left edge is seven columns left of its register. -/
def windowCovers (d : Drawing) (x : Nat) : Bool :=
  d.showsWindow && d.windowX.toNat ≤ x + 7

/-- The colour number of the background or the window in a column. -/
def layerColour (d : Drawing) (x : Nat) : UInt8 :=
  if d.windowCovers x then
    d.mapColour d.windowMap (x + 7 - d.windowX.toNat) d.windowLine.toNat
  else if d.backgroundOn then
    d.mapColour d.backgroundMap ((x + d.scrollX.toNat) % 256) ((d.line + d.scrollY.toNat) % 256)
  else 0

/-- The line of the window that comes next after this line. -/
def nextWindowLine (d : Drawing) : UInt8 :=
  if d.showsWindow then d.windowLine + 1 else d.windowLine

/-! ### Sprites -/

/-- The sprites on the line: the first ten that touch it. -/
def sprites (d : Drawing) : List Sprite :=
  if d.spritesOn then
    (((List.finRange 40).map (Sprite.ofMemory d.oam)).filter
      (·.touches d.spriteHeight d.line)).take 10
  else []

/-- The colour number of a sprite on the line in a column; zero is transparent. -/
def spriteColour (d : Drawing) (s : Sprite) (x : Nat) : UInt8 :=
  if s.x.toNat ≤ x + 8 ∧ x < s.x.toNat then
    let row := d.line + 16 - s.y.toNat
    let row := if s.flipY then d.spriteHeight - 1 - row else row
    let column := x + 8 - s.x.toNat
    let column := if s.flipX then 7 - column else column
    let tile := if d.spriteHeight = 16 then s.tile &&& 0xFE else s.tile
    d.tileColour (16 * tile.toNat) row column
  else 0

/-- Whether a sprite on the line is seen in a column, given the colour number of the layers below.
-/
def seen (d : Drawing) (s : Sprite) (x : Nat) (layer : UInt8) : Bool :=
  d.spriteColour s x != 0 && !(s.behind && layer != 0)

/-- The sprite in front: the leftmost one, and of several the one that comes first. -/
def frontmost? : List Sprite → Option Sprite
  | [] => none
  | s :: rest =>
    match frontmost? rest with
    | none => some s
    | some t => if t.x < s.x then some t else some s

/-! ### Shades -/

/-- The shade that a palette gives to a colour number. -/
def applyPalette (palette colour : UInt8) : UInt8 :=
  (palette >>> (2 * colour)) &&& 3

/-- The shade in a column, given the sprites on the line. -/
def shade (d : Drawing) (sprites : List Sprite) (x : Nat) : UInt8 :=
  let layer := d.layerColour x
  match frontmost? (sprites.filter fun s => d.seen s x layer) with
  | some s =>
    applyPalette (if s.palette = 0 then d.object0 else d.object1) (d.spriteColour s x)
  | none => if d.backgroundOn then applyPalette d.background layer else 0

/-- The shades of the line. -/
def row (d : Drawing) : Vector UInt8 160 :=
  let sprites := d.sprites
  Vector.ofFn fun x => d.shade sprites x

end Drawing

end Handheld
