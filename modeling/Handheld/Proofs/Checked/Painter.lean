import Handheld.Display.Scanline
import Handheld.Proofs.Checked.Basic
import Mathlib.Logic.Basic

/-!
# A line that is drawn without traps

`Drawing.row` says of each pixel which shade it has.  Here the same line is drawn in the way of a
program: on a `Canvas` of 160 columns, first the background, then the window over it, and then the
sprites from back to front, each with eight dots of which some are beyond the edges.  All offsets
into the video memory are computed from registers, tile numbers and bytes of the sprite memory, and
nothing keeps them small but the arithmetic.

Both ways agree (`Drawing.checkedRow_eq`), so that no index is ever out of range, whatever the
registers and the memories hold.  The proof goes through the columns: `Canvas.sweep` says what a
loop over columns leaves behind, and `Drawing.head?_mergeSort` that the sprite that is painted last
is the one in front.
-/

namespace Handheld

/-! ### Columns -/

/-- A line that is being drawn: for each column the shade, and whether the layer below the sprites
shows a colour there. -/
abbrev Canvas := Vector (UInt8 × Bool) 160

namespace Canvas

/-- A loop over columns, each round of which paints a single one, paints each column once. -/
theorem sweep {step : Canvas → Nat → Checked Canvas} (paint : Nat → UInt8 × Bool → UInt8 × Bool)
    {left : Int} {first stop : Nat}
    (hstep : ∀ v i, first ≤ i → i < stop → ∃ v' : Canvas, step v i = .ok v' ∧
      ∀ (x : Nat) (_ : x < 160), v'[x] = if (x : Int) = left + i then paint x v[x] else v[x])
    (start count : Nat) (hfirst : first ≤ start) (hstop : start + count ≤ stop) (v : Canvas) :
    ∃ v' : Canvas, (List.range' start count).foldlM step v = .ok v' ∧ ∀ (x : Nat) (_ : x < 160),
      v'[x] = if left + start ≤ x ∧ (x : Int) < left + start + count then paint x v[x]
        else v[x] := by
  induction count generalizing start v with
  | zero =>
    refine ⟨v, rfl, fun x hx => (if_neg ?_).symm⟩
    omega
  | succ count ih =>
    obtain ⟨v₁, hv₁, hone⟩ := hstep v start hfirst (by omega)
    obtain ⟨v₂, hv₂, hrest⟩ := ih (start + 1) (by omega) (by omega) v₁
    refine ⟨v₂, ?_, fun x hx => ?_⟩
    · rw [List.range'_succ, List.foldlM_cons, hv₁, Checked.ok_bind, hv₂]
    · rw [hrest x hx, hone x hx]
      by_cases hx' : (x : Int) = left + start
      · rw [if_neg (by omega), if_pos hx', if_pos (by omega)]
      · rw [if_neg hx']
        exact if_congr (by omega) rfl rfl

end Canvas

/-- The colour number that two bit planes have at a bit. -/
def bitColour (low high : UInt8) (bit : Nat) : UInt8 :=
  Byte.ofBit 1 (Byte.bit high bit) ||| Byte.ofBit 0 (Byte.bit low bit)

namespace Drawing

variable {d : Drawing}

/-! ### Tiles -/

/-- The two bit planes in a row of a tile whose data start at an offset. -/
def checkedPlanes (d : Drawing) (offset row : Nat) : Checked (UInt8 × UInt8) := do
  let low ← Checked.get d.video (offset + 2 * row)
  let high ← Checked.get d.video (offset + 2 * row + 1)
  return (low, high)

/-- Where the data of a tile of the background or the window start. -/
def checkedTileOffset (d : Drawing) (tile : UInt8) : Checked Nat :=
  if d.unsignedTiles then return 16 * tile.toNat
  else Checked.ofInt (0x1000 + 16 * tile.toInt8.toInt)

/-- The colour number at a point of a tile map. -/
def checkedMapColour (d : Drawing) (map x y : Nat) : Checked UInt8 := do
  let tile ← Checked.get d.video (map + 32 * (y / 8) + x / 8)
  let offset ← d.checkedTileOffset tile
  let (low, high) ← d.checkedPlanes offset (y % 8)
  let bit ← Checked.sub 7 (x % 8)
  return bitColour low high bit

lemma videoByte_of_lt {i : Nat} (h : i < 0x2000) :
    Checked.get d.video i = .ok (d.videoByte i) := by
  rw [Checked.get_of_lt h, videoByte, Vector.getElem?_eq_getElem h]
  rfl

lemma checkedPlanes_eq {offset row : Nat} (h : offset + 2 * row + 1 < 0x2000) :
    d.checkedPlanes offset row =
      .ok (d.videoByte (offset + 2 * row), d.videoByte (offset + 2 * row + 1)) := by
  rw [checkedPlanes, videoByte_of_lt (by omega), Checked.ok_bind, videoByte_of_lt h]
  rfl

/-- A signed tile number counts from the middle of the tile data. -/
lemma checkedTileOffset_eq (d : Drawing) (tile : UInt8) :
    d.checkedTileOffset tile = .ok (d.tileOffset tile) := by
  have hsigned : tile.toInt8.toInt =
      if 2 * tile.toNat < 2 ^ 8 then (tile.toNat : Int) else tile.toNat - (2 ^ 8 : Nat) :=
    BitVec.toInt_eq_toNat_cond tile.toBitVec
  have hge : tile ≥ 0x80 ↔ ¬ 2 * tile.toNat < 2 ^ 8 := by
    rw [ge_iff_le, UInt8.le_iff_toNat_le]
    change 128 ≤ tile.toNat ↔ _
    omega
  unfold checkedTileOffset tileOffset
  cases d.unsignedTiles with
  | true => rfl
  | false =>
    rw [hsigned]
    by_cases htile : 2 * tile.toNat < 2 ^ 8
    · simp only [hge, htile, not_true_eq_false, Bool.false_or, decide_false, Bool.false_eq_true,
        if_false, if_true]
      exact Checked.ofInt_of_eq (by omega)
    · simp only [hge, htile, not_false_eq_true, Bool.false_or, decide_true, Bool.false_eq_true,
        if_false, if_true]
      exact Checked.ofInt_of_eq (by omega)

/-- The data of the tiles of the background and the window end before the tile maps. -/
lemma tileOffset_le (d : Drawing) (tile : UInt8) : d.tileOffset tile ≤ 0x17F0 := by
  have htile := tile.toNat_lt
  unfold tileOffset
  split
  · omega
  · rename_i h
    simp only [Bool.or_eq_true, decide_eq_true_eq, not_or, ge_iff_le, UInt8.not_le,
      UInt8.lt_iff_toNat_lt] at h
    have hlt : tile.toNat < 128 := h.2
    omega

/-- Every point of a tile map has a colour. -/
lemma checkedMapColour_eq {map x y : Nat} (hmap : map ≤ 0x1C00) (hx : x < 256) (hy : y < 256) :
    d.checkedMapColour map x y = .ok (d.mapColour map x y) := by
  have hoffset := d.tileOffset_le (d.videoByte (map + 32 * (y / 8) + x / 8))
  rw [checkedMapColour, videoByte_of_lt (by omega), Checked.ok_bind, checkedTileOffset_eq,
    Checked.ok_bind, checkedPlanes_eq (by omega), Checked.ok_bind]
  simp only
  rw [Checked.sub_of_le (by omega), Checked.ok_bind]
  rfl

/-! ### Background and window -/

/-- Paint a row of a tile map from a column on, given the places of the columns in the map. -/
def checkedLayer (d : Drawing) (map row : Nat) (place : Nat → Checked Nat) (start : Nat)
    (canvas : Canvas) : Checked Canvas :=
  (List.range' start (160 - start)).foldlM (fun canvas x => do
    let place ← place x
    let colour ← d.checkedMapColour map place row
    Checked.set canvas x (applyPalette d.background colour, colour != 0)) canvas

/-- A layer covers all columns from its first one on. -/
lemma checkedLayer_eq {map row : Nat} {place : Nat → Checked Nat} (offset : Nat → Nat)
    {start : Nat} (hmap : map ≤ 0x1C00) (hrow : row < 256) (hstart : start ≤ 160)
    (hplace : ∀ x, start ≤ x → x < 160 → place x = .ok (offset x) ∧ offset x < 256)
    (canvas : Canvas) :
    ∃ v : Canvas, d.checkedLayer map row place start canvas = .ok v ∧ ∀ (x : Nat) (_ : x < 160),
      v[x] = if start ≤ x then
        (applyPalette d.background (d.mapColour map (offset x) row),
          d.mapColour map (offset x) row != 0)
      else canvas[x] := by
  have hstep (v : Canvas) (i : Nat) (hfirst : start ≤ i) (hlast : i < 160) :
      ∃ v' : Canvas, (do
        let place ← place i
        let colour ← d.checkedMapColour map place row
        Checked.set v i (applyPalette d.background colour, colour != 0)) = .ok v' ∧
      ∀ (x : Nat) (_ : x < 160), v'[x] = if (x : Int) = 0 + i then
        (applyPalette d.background (d.mapColour map (offset x) row),
          d.mapColour map (offset x) row != 0)
      else v[x] := by
    obtain ⟨hok, hlt⟩ := hplace i hfirst hlast
    rw [hok, Checked.ok_bind, checkedMapColour_eq hmap hlt hrow, Checked.ok_bind,
      Checked.set_of_lt hlast]
    refine ⟨_, rfl, fun x hx => ?_⟩
    rw [Vector.getElem_set]
    by_cases hxi : i = x
    · subst hxi
      rw [if_pos rfl, if_pos (by omega)]
    · rw [if_neg hxi, if_neg (by omega)]
  obtain ⟨v, hv, hcolumns⟩ := Canvas.sweep (fun x _ => _) hstep start (160 - start)
    (Nat.le_refl start) (by omega) canvas
  refine ⟨v, hv, fun x hx => (hcolumns x hx).trans ?_⟩
  exact if_congr (by omega) rfl rfl

/-- Paint the background, if it is switched on. -/
def checkedBackground (d : Drawing) (canvas : Canvas) : Checked Canvas :=
  if d.backgroundOn then
    d.checkedLayer d.backgroundMap ((d.line + d.scrollY.toNat) % 256)
      (fun x => return (x + d.scrollX.toNat) % 256) 0 canvas
  else return canvas

/-- Paint the window, if the line shows it. -/
def checkedWindow (d : Drawing) (canvas : Canvas) : Checked Canvas :=
  if d.showsWindow then do
    let left : Int := d.windowX.toNat - 7
    let start ← Checked.ofInt (max left 0)
    d.checkedLayer d.windowMap d.windowLine.toNat (fun x => Checked.ofInt (x - left)) start canvas
  else return canvas

lemma backgroundMap_le (d : Drawing) : d.backgroundMap ≤ 0x1C00 := by
  unfold backgroundMap
  split
  · omega
  · omega

lemma windowMap_le (d : Drawing) : d.windowMap ≤ 0x1C00 := by
  unfold windowMap
  split
  · omega
  · omega

/-- The background can be painted. -/
lemma checkedBackground_eq (d : Drawing) (canvas : Canvas) :
    ∃ v : Canvas, d.checkedBackground canvas = .ok v ∧ ∀ (x : Nat) (_ : x < 160), v[x] =
      if d.backgroundOn = true then
        let colour := d.mapColour d.backgroundMap ((x + d.scrollX.toNat) % 256)
          ((d.line + d.scrollY.toNat) % 256)
        (applyPalette d.background colour, colour != 0)
      else canvas[x] := by
  unfold checkedBackground
  cases d.backgroundOn with
  | true =>
    have hlt (n : Nat) : n % 256 < 256 := Nat.mod_lt _ (by decide)
    obtain ⟨v, hv, hcolumns⟩ := d.checkedLayer_eq (fun x => (x + d.scrollX.toNat) % 256)
      d.backgroundMap_le (hlt _) (Nat.zero_le 160) (fun x _ _ => ⟨rfl, hlt _⟩) canvas
    exact ⟨v, hv, fun x hx => (hcolumns x hx).trans (if_pos (Nat.zero_le x))⟩
  | false => exact ⟨canvas, rfl, fun x hx => rfl⟩

/-- The window can be painted: its left edge may be beyond that of the screen, and its lines go on
counting below the screen. -/
lemma checkedWindow_eq (d : Drawing) (canvas : Canvas) :
    ∃ v : Canvas, d.checkedWindow canvas = .ok v ∧ ∀ (x : Nat) (_ : x < 160), v[x] =
      if d.windowCovers x = true then
        let colour := d.mapColour d.windowMap (x + 7 - d.windowX.toNat) d.windowLine.toNat
        (applyPalette d.background colour, colour != 0)
      else canvas[x] := by
  unfold checkedWindow
  by_cases hwindow : d.showsWindow = true
  · have hedge : d.windowX.toNat < 167 := by
      simp only [showsWindow, Bool.and_eq_true, decide_eq_true_eq] at hwindow
      exact hwindow.2
    have hcovers (x : Nat) : d.windowCovers x = true ↔ d.windowX.toNat - 7 ≤ x := by
      simp only [windowCovers, hwindow, Bool.true_and, decide_eq_true_eq]
      omega
    have hplace (x : Nat) (hfirst : d.windowX.toNat - 7 ≤ x) (hlast : x < 160) :
        Checked.ofInt (x - ((d.windowX.toNat : Int) - 7)) = .ok (x + 7 - d.windowX.toNat) ∧
          x + 7 - d.windowX.toNat < 256 :=
      ⟨Checked.ofInt_of_eq (by omega), by omega⟩
    obtain ⟨v, hv, hcolumns⟩ := d.checkedLayer_eq (fun x => x + 7 - d.windowX.toNat)
      d.windowMap_le d.windowLine.toNat_lt (by omega) hplace canvas
    refine ⟨v, ?_, fun x hx => ?_⟩
    · rw [if_pos hwindow]
      simp only
      rw [Checked.ofInt_of_eq (i := d.windowX.toNat - 7) (by omega), Checked.ok_bind, hv]
    · rw [hcolumns x hx]
      exact if_congr (hcovers x).symm rfl rfl
  · have hcovers (x : Nat) : ¬ d.windowCovers x = true := by
      simp [windowCovers, hwindow]
    exact ⟨canvas, if_neg hwindow, fun x hx => (if_neg (hcovers x)).symm⟩

/-! ### Sprites -/

/-- The sprite with a given number. -/
def checkedSprite (d : Drawing) (i : Nat) : Checked Sprite := do
  let y ← Checked.get d.oam (4 * i)
  let x ← Checked.get d.oam (4 * i + 1)
  let tile ← Checked.get d.oam (4 * i + 2)
  let flags ← Checked.get d.oam (4 * i + 3)
  return { y := y, x := x, tile := tile, flags := flags }

/-- Look for sprites on the line among those with given numbers, until there are ten. -/
def checkedSprites (d : Drawing) : List Nat → List Sprite → Checked (List Sprite)
  | [], found => return found
  | i :: rest, found => do
    let s ← d.checkedSprite i
    if s.screenY ≤ d.line ∧ (d.line : Int) < s.screenY + d.spriteHeight then
      let found := found ++ [s]
      if found.length = 10 then return found else d.checkedSprites rest found
    else d.checkedSprites rest found

/-- The bit that one of the eight dots of a row of a sprite comes from. -/
def checkedSpriteBit (s : Sprite) (i : Nat) : Checked Nat :=
  if s.flipX then return i else Checked.sub 7 i

/-- Paint one of the eight dots of a row of a sprite. -/
def checkedSpriteDot (d : Drawing) (s : Sprite) (low high : UInt8) (canvas : Canvas) (i : Nat) :
    Checked Canvas :=
  let x := s.screenX + i
  if x < 0 ∨ 160 ≤ x then return canvas
  else do
    let bit ← checkedSpriteBit s i
    let colour := bitColour low high bit
    if colour = 0 then return canvas
    else do
      let column ← Checked.ofInt x
      let dot ← Checked.get canvas column
      if s.behind && dot.2 then return canvas
      else
        let palette := if s.palette = 0 then d.object0 else d.object1
        Checked.set canvas column (applyPalette palette colour, dot.2)

/-- The row of a sprite that is on the line. -/
def checkedSpriteRow (d : Drawing) (s : Sprite) : Checked Nat := do
  let row ← Checked.ofInt (d.line - s.screenY)
  if s.flipY then
    let last ← Checked.sub d.spriteHeight 1
    Checked.sub last row
  else return row

/-- Paint a sprite. -/
def checkedPaint (d : Drawing) (canvas : Canvas) (s : Sprite) : Checked Canvas := do
  let row ← d.checkedSpriteRow s
  let tile := if d.spriteHeight = 16 then s.tile &&& 0xFE else s.tile
  let (low, high) ← d.checkedPlanes (16 * tile.toNat) row
  (List.range' 0 8).foldlM (d.checkedSpriteDot s low high) canvas

/-- Paint the sprites, if they are switched on: from right to left, and of several in the same place
the first one last. -/
def checkedOverlay (d : Drawing) (canvas : Canvas) : Checked Canvas :=
  if d.spritesOn then do
    let sprites ← d.checkedSprites (List.range 40) []
    (sprites.mergeSort fun s t => s.x ≤ t.x).reverse.foldlM d.checkedPaint canvas
  else return canvas

/-- Draw the line, and count the lines of the window. -/
def checkedRow (d : Drawing) : Checked (Vector UInt8 160 × UInt8) := do
  let canvas ← d.checkedBackground (Vector.replicate 160 (0, false))
  let canvas ← d.checkedWindow canvas
  let canvas ← d.checkedOverlay canvas
  return (canvas.map (·.1), d.nextWindowLine)

/-! #### The sprites on the line -/

/-- Every sprite is in the sprite memory. -/
lemma checkedSprite_eq (d : Drawing) (i : Fin 40) :
    d.checkedSprite i = .ok (.ofMemory d.oam i) := by
  have hi := i.isLt
  rw [checkedSprite, Checked.get_of_lt (by omega), Checked.ok_bind, Checked.get_of_lt (by omega),
    Checked.ok_bind, Checked.get_of_lt (by omega), Checked.ok_bind, Checked.get_of_lt (by omega)]
  rfl

lemma touches_iff {s : Sprite} : s.touches d.spriteHeight d.line = true ↔
    s.screenY ≤ d.line ∧ (d.line : Int) < s.screenY + d.spriteHeight := by
  simp only [Sprite.touches, Sprite.screenY, Bool.and_eq_true, decide_eq_true_eq]
  omega

/-- The search finds the first sprites on the line, and stops with the tenth. -/
lemma checkedSprites_eq (numbers : List (Fin 40)) (found : List Sprite)
    (hfound : found.length < 10) :
    d.checkedSprites (numbers.map Fin.val) found = .ok (found ++
      ((numbers.map (Sprite.ofMemory d.oam)).filter
        (·.touches d.spriteHeight d.line)).take (10 - found.length)) := by
  induction numbers generalizing found with
  | nil => simp [checkedSprites]
  | cons i rest ih =>
    rw [List.map_cons, checkedSprites, checkedSprite_eq, Checked.ok_bind, List.map_cons]
    by_cases htouches : (Sprite.ofMemory d.oam i).touches d.spriteHeight d.line = true
    · have hten : 10 - found.length = 10 - (found ++ [Sprite.ofMemory d.oam i]).length + 1 := by
        rw [List.length_append, List.length_singleton]
        omega
      rw [if_pos (touches_iff.mp htouches), List.filter_cons, if_pos htouches, hten,
        List.take_succ_cons]
      simp only
      split
      · rename_i hlength
        rw [hlength, Nat.sub_self, List.take_zero]
        rfl
      · rename_i hlength
        rw [ih _ (by rw [List.length_append, List.length_singleton] at hlength ⊢; omega),
          List.append_assoc, List.singleton_append]
    · rw [if_neg (fun h => htouches (touches_iff.mpr h)), List.filter_cons, if_neg htouches,
        ih found hfound]

/-! #### The dots of a sprite -/

/-- The row of a sprite that is on the line. -/
def spriteRow (d : Drawing) (s : Sprite) : Nat :=
  let row := d.line + 16 - s.y.toNat
  if s.flipY then d.spriteHeight - 1 - row else row

/-- Where the data of a row of a sprite are. -/
def spriteOffset (d : Drawing) (s : Sprite) : Nat :=
  16 * (if d.spriteHeight = 16 then s.tile &&& 0xFE else s.tile).toNat + 2 * d.spriteRow s

lemma spriteHeight_le (d : Drawing) : d.spriteHeight ≤ 16 := by
  unfold spriteHeight
  split
  · omega
  · omega

/-- The row of a sprite on the line is one of the sprite. -/
lemma spriteRow_lt {s : Sprite} (h : s.touches d.spriteHeight d.line = true) :
    d.spriteRow s < d.spriteHeight := by
  simp only [Sprite.touches, Bool.and_eq_true, decide_eq_true_eq] at h
  unfold spriteRow
  simp only
  split
  · omega
  · omega

lemma checkedSpriteRow_eq {s : Sprite} (h : s.touches d.spriteHeight d.line = true) :
    d.checkedSpriteRow s = .ok (d.spriteRow s) := by
  have hline := touches_iff.mp h
  have hrow : d.line - s.screenY = (d.line + 16 - s.y.toNat : Nat) := by
    simp only [Sprite.screenY] at hline ⊢
    omega
  simp only [Sprite.touches, Bool.and_eq_true, decide_eq_true_eq] at h
  rw [checkedSpriteRow, Checked.ofInt_of_eq hrow, Checked.ok_bind]
  unfold spriteRow
  cases s.flipY with
  | true =>
    simp only [if_true]
    rw [Checked.sub_of_le (by omega), Checked.ok_bind, Checked.sub_of_le (by omega)]
  | false => rfl

/-- The colour number that a sprite on the line has in one of its columns. -/
lemma spriteColour_of_column {s : Sprite} {x i : Nat} (hi : i < 8)
    (hx : (x : Int) = s.screenX + i) :
    d.spriteColour s x = bitColour (d.videoByte (d.spriteOffset s))
      (d.videoByte (d.spriteOffset s + 1)) (if s.flipX then i else 7 - i) := by
  simp only [Sprite.screenX] at hx
  have hcolumn : x + 8 - s.x.toNat = i := by omega
  unfold spriteColour
  rw [if_pos (by omega)]
  simp only [hcolumn]
  cases s.flipX with
  | true =>
    have hflip : 7 - (7 - i) = i := by omega
    simp only [if_true, tileColour, planeColour, bitColour, hflip]
    rfl
  | false => rfl

/-- Beside its columns a sprite is transparent. -/
lemma spriteColour_of_beside {s : Sprite} {x : Nat}
    (hx : ¬ (s.screenX ≤ x ∧ (x : Int) < s.screenX + 8)) : d.spriteColour s x = 0 := by
  simp only [Sprite.screenX] at hx
  exact if_neg (by omega)

/-- Whether a sprite is seen in a column, given whether the layer below shows a colour there. -/
def seenOver (d : Drawing) (s : Sprite) (x : Nat) (covered : Bool) : Bool :=
  d.spriteColour s x != 0 && !(s.behind && covered)

/-- The shade of a sprite in a column. -/
def spriteShade (d : Drawing) (s : Sprite) (x : Nat) : UInt8 :=
  applyPalette (if s.palette = 0 then d.object0 else d.object1) (d.spriteColour s x)

/-- What a sprite makes of a column. -/
def spriteDot (d : Drawing) (s : Sprite) (x : Nat) (dot : UInt8 × Bool) : UInt8 × Bool :=
  if d.seenOver s x dot.2 then (d.spriteShade s x, dot.2) else dot

lemma checkedSpriteBit_eq (s : Sprite) {i : Nat} (hi : i < 8) :
    checkedSpriteBit s i = .ok (if s.flipX then i else 7 - i) := by
  unfold checkedSpriteBit
  split
  · rfl
  · exact Checked.sub_of_le (by omega)

/-- A dot of a sprite on the screen. -/
lemma checkedSpriteDot_of_column {s : Sprite} (canvas : Canvas) {i column : Nat} (hi : i < 8)
    (hcolumn : (column : Int) = s.screenX + i) (hlt : column < 160) :
    d.checkedSpriteDot s (d.videoByte (d.spriteOffset s)) (d.videoByte (d.spriteOffset s + 1))
      canvas i = .ok (canvas.set column (d.spriteDot s column canvas[column])) := by
  have hinside : ¬ (s.screenX + i < 0 ∨ 160 ≤ s.screenX + (i : Int)) := by omega
  have hcolour := d.spriteColour_of_column hi hcolumn
  unfold checkedSpriteDot
  simp only
  rw [if_neg hinside, checkedSpriteBit_eq s hi, Checked.ok_bind, ← hcolour,
    Checked.ofInt_of_eq hcolumn.symm, Checked.ok_bind, Checked.get_of_lt hlt, Checked.ok_bind,
    Checked.set_of_lt hlt]
  unfold spriteDot seenOver
  by_cases hzero : d.spriteColour s column = 0
  · simp [hzero]
  · by_cases hbehind : (s.behind && canvas[column].2) = true
    · simp [hbehind]
    · have hseen : (d.spriteColour s column != 0 && !(s.behind && canvas[column].2)) = true := by
        simp [hzero, hbehind]
      rw [if_neg hzero, if_neg hbehind, if_pos hseen]
      rfl

/-- Each dot of a sprite paints its own column, unless it is beyond the edges. -/
lemma checkedSpriteDot_eq (s : Sprite) (canvas : Canvas) {i : Nat} (hi : i < 8) :
    ∃ v : Canvas, d.checkedSpriteDot s (d.videoByte (d.spriteOffset s))
      (d.videoByte (d.spriteOffset s + 1)) canvas i = .ok v ∧ ∀ (x : Nat) (_ : x < 160), v[x] =
        if (x : Int) = s.screenX + i then d.spriteDot s x canvas[x] else canvas[x] := by
  by_cases hinside : 0 ≤ s.screenX + (i : Int) ∧ s.screenX + (i : Int) < 160
  · obtain ⟨column, hcolumn⟩ := Int.eq_ofNat_of_zero_le hinside.1
    refine ⟨_, checkedSpriteDot_of_column canvas hi hcolumn.symm (by omega), fun x hx => ?_⟩
    rw [Vector.getElem_set]
    by_cases hx' : column = x
    · subst hx'
      rw [if_pos rfl, if_pos hcolumn.symm]
    · rw [if_neg hx', if_neg (by omega)]
  · exact ⟨canvas, if_pos (by omega), fun x hx => (if_neg (by omega)).symm⟩

/-- A sprite on the line can be painted. -/
lemma checkedPaint_eq {s : Sprite} (h : s.touches d.spriteHeight d.line = true)
    (canvas : Canvas) : ∃ v : Canvas, d.checkedPaint canvas s = .ok v ∧
      ∀ (x : Nat) (_ : x < 160), v[x] = d.spriteDot s x canvas[x] := by
  have hrow := d.spriteRow_lt h
  have hheight := d.spriteHeight_le
  have htile := (if d.spriteHeight = 16 then s.tile &&& 0xFE else s.tile).toNat_lt
  obtain ⟨v, hv, hcolumns⟩ := Canvas.sweep (d.spriteDot s)
    (fun v i _ hi => checkedSpriteDot_eq s v hi) 0 8 (Nat.zero_le 0) (by omega) canvas
  refine ⟨v, ?_, fun x hx => (hcolumns x hx).trans ?_⟩
  · rw [checkedPaint, checkedSpriteRow_eq h, Checked.ok_bind]
    simp only
    rw [checkedPlanes_eq (by omega), Checked.ok_bind]
    exact hv
  · by_cases hx' : s.screenX ≤ x ∧ (x : Int) < s.screenX + 8
    · exact if_pos (by omega)
    · have hseen : d.seenOver s x canvas[x].2 = false := by
        rw [seenOver, spriteColour_of_beside hx']
        rfl
      rw [if_neg (by omega), spriteDot, hseen]
      rfl

/-! #### The sprite in front -/

/-- Sprites that are painted from the last one to the first leave the first one in sight. -/
lemma foldlM_checkedPaint {sprites : List Sprite}
    (h : ∀ s ∈ sprites, s.touches d.spriteHeight d.line = true) (canvas : Canvas) :
    ∃ v : Canvas, sprites.reverse.foldlM d.checkedPaint canvas = .ok v ∧
      ∀ (x : Nat) (_ : x < 160), v[x] =
        match (sprites.filter fun s => d.seenOver s x canvas[x].2).head? with
        | some s => (d.spriteShade s x, canvas[x].2)
        | none => canvas[x] := by
  induction sprites with
  | nil => exact ⟨canvas, rfl, fun x hx => rfl⟩
  | cons s rest ih =>
    obtain ⟨v₁, hv₁, hrest⟩ := ih fun t ht => h t (List.mem_cons_of_mem s ht)
    obtain ⟨v₂, hv₂, hfirst⟩ := checkedPaint_eq (h s List.mem_cons_self) v₁
    have hcovered (x : Nat) (hx : x < 160) : v₁[x].2 = canvas[x].2 := by
      rw [hrest x hx]
      split
      · rfl
      · rfl
    refine ⟨v₂, ?_, fun x hx => ?_⟩
    · rw [List.reverse_cons, List.foldlM_append, hv₁, Checked.ok_bind, List.foldlM_cons, hv₂]
      rfl
    · rw [hfirst x hx, spriteDot, hcovered x hx, List.filter_cons]
      by_cases hseen : d.seenOver s x canvas[x].2 = true
      · rw [if_pos hseen, if_pos hseen]
        rfl
      · rw [if_neg hseen, if_neg hseen, hrest x hx]

/-- The order in which sprites cover each other: the first of the sorted ones is in front. -/
theorem head?_mergeSort (p : Sprite → Bool) (sprites : List Sprite) :
    ((sprites.mergeSort fun s t => s.x ≤ t.x).filter p).head? = frontmost? (sprites.filter p) := by
  have htrans (a b c : Sprite) : decide (a.x ≤ b.x) = true → decide (b.x ≤ c.x) = true →
      decide (a.x ≤ c.x) = true := by
    simp only [decide_eq_true_eq]
    exact UInt8.le_trans
  have htotal (a b : Sprite) : (decide (a.x ≤ b.x) || decide (b.x ≤ a.x)) = true := by
    simp only [Bool.or_eq_true, decide_eq_true_eq]
    exact UInt8.le_total a.x b.x
  induction sprites with
  | nil => simp [frontmost?]
  | cons s rest ih =>
    obtain ⟨before, after, hsorted, hrest, hbefore⟩ := List.mergeSort_cons htrans htotal s rest
    have hafter : ∀ t ∈ after, ¬ t.x < s.x := by
      have hpairwise := List.pairwise_mergeSort htrans htotal (s :: rest)
      rw [hsorted, List.pairwise_append, List.pairwise_cons] at hpairwise
      intro t ht
      simpa using hpairwise.2.1.1 t ht
    rw [hrest, List.filter_append] at ih
    rw [hsorted, List.filter_append, List.filter_cons, List.filter_cons]
    by_cases hs : p s = true
    · rw [if_pos hs, if_pos hs, frontmost?, ← ih]
      -- The sprite takes its place behind all that are to the left of it.
      cases hseen : before.filter p with
      | nil =>
        cases hbehind : after.filter p with
        | nil => rfl
        | cons t _ =>
          have ht : t ∈ after := (List.mem_filter.mp (hbehind ▸ List.mem_cons_self)).1
          exact (if_neg (hafter t ht)).symm
      | cons t _ =>
        have ht : t ∈ before := (List.mem_filter.mp (hseen ▸ List.mem_cons_self)).1
        have hlt : t.x < s.x := by simpa using hbefore t ht
        exact (if_pos hlt).symm
    · rw [if_neg hs, if_neg hs, ih]

/-- The sprites can be painted over the layers. -/
lemma checkedOverlay_eq (d : Drawing) (canvas : Canvas) :
    ∃ v : Canvas, d.checkedOverlay canvas = .ok v ∧ ∀ (x : Nat) (_ : x < 160), v[x] =
      match frontmost? (d.sprites.filter fun s => d.seenOver s x canvas[x].2) with
      | some s => (d.spriteShade s x, canvas[x].2)
      | none => canvas[x] := by
  have hnumbers : List.range 40 = (List.finRange 40).map Fin.val := by decide
  unfold checkedOverlay sprites
  cases d.spritesOn with
  | true =>
    simp only [if_true]
    rw [hnumbers, checkedSprites_eq _ [] (by decide), Checked.ok_bind, List.nil_append]
    simp only [List.length_nil, Nat.sub_zero]
    generalize hfound : (((List.finRange 40).map (Sprite.ofMemory d.oam)).filter
      (·.touches d.spriteHeight d.line)).take 10 = found
    have htouches : ∀ s ∈ found.mergeSort fun s t => s.x ≤ t.x,
        s.touches d.spriteHeight d.line = true := by
      intro s hs
      rw [List.mem_mergeSort, ← hfound] at hs
      exact (List.mem_filter.mp (List.mem_of_mem_take hs)).2
    obtain ⟨v, hv, hcolumns⟩ := foldlM_checkedPaint htouches canvas
    refine ⟨v, hv, fun x hx => ?_⟩
    rw [hcolumns x hx, head?_mergeSort]
  | false => exact ⟨canvas, rfl, fun x hx => rfl⟩

/-- The layers below the sprites can be painted. -/
lemma checkedLayers_eq (d : Drawing) :
    ∃ v : Canvas,
      d.checkedBackground (Vector.replicate 160 (0, false)) >>= d.checkedWindow = .ok v ∧
      ∀ (x : Nat) (_ : x < 160), v[x] =
        (if d.backgroundOn then applyPalette d.background (d.layerColour x) else 0,
          d.layerColour x != 0) := by
  obtain ⟨v₁, hv₁, hbackground⟩ := d.checkedBackground_eq (Vector.replicate 160 (0, false))
  obtain ⟨v₂, hv₂, hwindow⟩ := d.checkedWindow_eq v₁
  refine ⟨v₂, ?_, fun x hx => ?_⟩
  · rw [hv₁, Checked.ok_bind, hv₂]
  rw [hwindow x hx, layerColour]
  by_cases hcovers : d.windowCovers x = true
  · have hon : d.backgroundOn = true := by
      simp only [windowCovers, showsWindow, Bool.and_eq_true] at hcovers
      exact hcovers.1.1.1.1
    rw [if_pos hcovers, if_pos hcovers, if_pos hon]
  · rw [if_neg hcovers, if_neg hcovers, hbackground x hx, Vector.getElem_replicate]
    cases d.backgroundOn with
    | true => rfl
    | false => rfl

/-- The whole line can be drawn, and is the same as when it is drawn pixel by pixel. -/
theorem checkedRow_eq (d : Drawing) : d.checkedRow = .ok (d.row, d.nextWindowLine) := by
  obtain ⟨v₁, hv₁, hlayers⟩ := d.checkedLayers_eq
  obtain ⟨v₂, hv₂, hoverlay⟩ := d.checkedOverlay_eq v₁
  have hrow : v₂.map (·.1) = d.row := by
    apply Vector.ext
    intro x hx
    have hseen (s : Sprite) : d.seenOver s x v₁[x].2 = d.seen s x (d.layerColour x) := by
      rw [hlayers x hx]
      rfl
    rw [Vector.getElem_map, hoverlay x hx, row, Vector.getElem_ofFn, shade]
    simp only [hseen]
    cases frontmost? (d.sprites.filter fun s => d.seen s x (d.layerColour x)) with
    | some s => rfl
    | none => exact congrArg Prod.fst (hlayers x hx)
  rw [checkedRow, ← bind_assoc, hv₁, Checked.ok_bind, hv₂, Checked.ok_bind, hrow]
  rfl

end Drawing

end Handheld
