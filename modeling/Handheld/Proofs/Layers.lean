import Handheld.Proofs.Additive.Display
import Handheld.Proofs.Checked.Painter
import Mathlib.Algebra.GroupWithZero.Nat

/-!
# The background and the window of a whole frame

A frame without sprites shows the background and, in front of it, the window.
`Display.layerShade?` says which shade a pixel has: the address of its tile, of the row in this tile
and of the colour are computed from the registers alone, as if the whole picture were looked at at
once.

The display draws line by line, and counts the lines of the window instead of computing them.
`Display.Painted` says how far it has come: the lines above are as they should be, and the next line
of the window is the right one.  The end of a mode keeps this (`Painted.endMode`), and so does a
stretch of time within the frame (`Painting.advance`).  The main statement is
`Display.layers_of_frame`: however the time of a frame is divided, all lines are right once the last
one is drawn.
-/

namespace Handheld

namespace Display

/-! ### The picture at once -/

/-- The byte of the video memory at an address. -/
def videoByte? (video : Vector UInt8 0x2000) (address : Int) : Option UInt8 :=
  if 0x8000 ≤ address then video[(address - 0x8000).toNat]? else none

/-- The address of the data of a tile, whose number may count as a signed one. -/
def tileAddress (control tile : UInt8) : Int :=
  if Byte.bit control 4 then 0x8000 + 16 * (tile.toNat : Int) else 0x9000 + 16 * tile.toInt8.toInt

/-- The address of one of the two tile maps. -/
def mapAddress (second : Bool) : Int := if second then 0x9C00 else 0x9800

/-- The colour at a point of the tile map at an address. -/
def mapColour? (video : Vector UInt8 0x2000) (control : UInt8) (map : Int) (x y : Nat) :
    Option Nat := do
  let tile ← videoByte? video (map + 32 * (y / 8 : Nat) + (x / 8 : Nat))
  let low ← videoByte? video (tileAddress control tile + 2 * (y % 8 : Nat))
  let high ← videoByte? video (tileAddress control tile + 2 * (y % 8 : Nat) + 1)
  return 2 * (Byte.bit high (7 - x % 8)).toNat + (Byte.bit low (7 - x % 8)).toNat

/-- The colour at a point of the screen: that of the window, where this is, or else that of the
background. -/
def layerColour? (d : Display) (video : Vector UInt8 0x2000) (x y : Nat) : Option Nat :=
  if Byte.bit d.control 5 ∧ d.windowX.toNat ≤ 166 ∧ d.windowY.toNat ≤ y ∧
      d.windowX.toNat ≤ x + 7 then
    mapColour? video d.control (mapAddress (Byte.bit d.control 6)) (x + 7 - d.windowX.toNat)
      (y - d.windowY.toNat)
  else
    mapColour? video d.control (mapAddress (Byte.bit d.control 3)) ((x + d.scrollX.toNat) % 256)
      ((y + d.scrollY.toNat) % 256)

/-- The shade at a point of the screen, without sprites. -/
def layerShade? (d : Display) (video : Vector UInt8 0x2000) (x y : Nat) : Option Nat :=
  if Byte.bit d.control 0 then
    (d.layerColour? video x y).map fun colour => d.background.toNat / 4 ^ colour % 4
  else some 0

end Display

/-! ### A line -/

namespace Drawing

variable (g : Drawing)

/-- The number of a colour is made of two bits. -/
lemma toNat_bitColour (low high : UInt8) (bit : Nat) :
    (bitColour low high bit).toNat =
      2 * (Byte.bit high bit).toNat + (Byte.bit low bit).toNat := by
  unfold bitColour
  cases Byte.bit high bit <;> cases Byte.bit low bit <;> rfl

/-- In a column these are bits of the two planes. -/
lemma toNat_planeColour (low high : UInt8) (column : Nat) :
    (planeColour low high column).toNat =
      2 * (Byte.bit high (7 - column)).toNat + (Byte.bit low (7 - column)).toNat :=
  toNat_bitColour low high (7 - column)

/-- There are four colours. -/
lemma planeColour_le (low high : UInt8) (column : Nat) :
    (planeColour low high column).toNat ≤ 3 := by
  rw [toNat_planeColour]
  have hhigh := (Byte.bit high (7 - column)).toNat_le
  have hlow := (Byte.bit low (7 - column)).toNat_le
  omega

/-- The shade of a colour is two bits of the palette. -/
lemma toNat_applyPalette (palette : UInt8) {colour : UInt8} (h : colour.toNat ≤ 3) :
    (applyPalette palette colour).toNat = palette.toNat / 4 ^ colour.toNat % 4 := by
  have hshift : (2 * colour).toNat = 2 * colour.toNat := by
    rw [UInt8.toNat_mul]
    exact Nat.mod_eq_of_lt (by change 2 * colour.toNat < 256; omega)
  have hmask : ∀ n : Nat, n &&& 3 = n % 4 := fun n => Nat.and_two_pow_sub_one_eq_mod n 2
  rw [applyPalette, UInt8.toNat_and, UInt8.toNat_shiftRight, hshift,
    Nat.mod_eq_of_lt (by omega : 2 * colour.toNat < 8), Nat.shiftRight_eq_div_pow, Nat.pow_mul]
  exact hmask _

/-- The byte at an address is the one at an offset. -/
lemma videoByte?_eq {offset : Nat} (h : offset < 0x2000) {address : Int}
    (haddress : address = 0x8000 + offset) :
    Display.videoByte? g.video address = some (g.videoByte offset) := by
  have hoffset : (address - 0x8000).toNat = offset := by omega
  rw [Display.videoByte?, if_pos (by omega), hoffset, videoByte, Vector.getElem?_eq_getElem h]
  rfl

/-- The address of a tile is its offset in the video memory. -/
lemma tileAddress_eq (tile : UInt8) :
    Display.tileAddress g.control tile = 0x8000 + g.tileOffset tile := by
  have hoffset := checkedTileOffset_eq g tile
  unfold Display.tileAddress
  unfold checkedTileOffset unsignedTiles at hoffset
  cases hbit : Byte.bit g.control 4 with
  | true =>
    rw [hbit, if_pos rfl] at hoffset
    have heq : 16 * tile.toNat = g.tileOffset tile := Except.ok.inj hoffset
    rw [if_pos rfl]
    omega
  | false =>
    rw [hbit, if_neg Bool.false_ne_true, Checked.ofInt] at hoffset
    rw [if_neg Bool.false_ne_true]
    split at hoffset
    · have heq := Except.ok.inj hoffset
      omega
    · cases hoffset

/-- The colours of a tile map. -/
lemma mapColour?_eq {map x y : Nat} (hmap : map ≤ 0x1C00) (hx : x < 256) (hy : y < 256) :
    Display.mapColour? g.video g.control (0x8000 + map) x y =
      some (g.mapColour map x y).toNat := by
  set tile := g.videoByte (map + 32 * (y / 8) + x / 8) with htile
  have hoffset := g.tileOffset_le tile
  have haddress := g.tileAddress_eq tile
  have hnumber : Display.videoByte? g.video (0x8000 + map + 32 * (y / 8 : Nat) + (x / 8 : Nat)) =
      some tile := g.videoByte?_eq (by omega) (by omega)
  have hlow : Display.videoByte? g.video (Display.tileAddress g.control tile + 2 * (y % 8 : Nat)) =
      some (g.videoByte (g.tileOffset tile + 2 * (y % 8))) := g.videoByte?_eq (by omega) (by omega)
  have hhigh : Display.videoByte? g.video
      (Display.tileAddress g.control tile + 2 * (y % 8 : Nat) + 1) =
      some (g.videoByte (g.tileOffset tile + 2 * (y % 8) + 1)) :=
    g.videoByte?_eq (by omega) (by omega)
  rw [Display.mapColour?, hnumber]
  simp only [Option.bind_eq_bind, Option.bind_some, hlow, hhigh]
  rw [mapColour, tileColour, toNat_planeColour]
  rfl

/-- The background and the window have four colours. -/
lemma layerColour_le (x : Nat) : (g.layerColour x).toNat ≤ 3 := by
  unfold layerColour
  split
  · exact planeColour_le _ _ _
  · split
    · exact planeColour_le _ _ _
    · decide

/-- A line without sprites shows the background and the window. -/
lemma row_of_not_spritesOn (h : g.spritesOn = false) (x : Fin 160) : g.row.get x =
    if g.backgroundOn then applyPalette g.background (g.layerColour x) else 0 := by
  have hsprites : g.sprites = [] := by
    rw [sprites, h]
    rfl
  change g.row[x.val] = _
  rw [row, Vector.getElem_ofFn, hsprites]
  rfl

end Drawing

namespace Display

variable {d e : Display} {video : Vector UInt8 0x2000} {oam : Vector UInt8 0xA0}

/-- The display shows the window on some of its lines. -/
def ShowsWindow (d : Display) : Prop :=
  Byte.bit d.control 0 = true ∧ Byte.bit d.control 5 = true ∧ d.windowX.toNat ≤ 166

/-- The drawing of a line, with the line of the window that comes next. -/
def drawingOf (d : Display) (video : Vector UInt8 0x2000) (oam : Vector UInt8 0xA0) (y : Nat)
    (windowLine : UInt8) : Drawing :=
  { d.drawing video oam with line := y, windowLine := windowLine }

section

variable {y : Nat} {windowLine : UInt8}

/-- A line shows the window from the line of its register on. -/
lemma showsWindow_drawingOf : (d.drawingOf video oam y windowLine).showsWindow = true ↔
    d.ShowsWindow ∧ d.windowY.toNat ≤ y := by
  have hshows : (d.drawingOf video oam y windowLine).showsWindow =
      (Byte.bit d.control 0 && Byte.bit d.control 5 && decide (d.windowY.toNat ≤ y) &&
        decide (d.windowX.toNat < 167)) := rfl
  simp only [hshows, ShowsWindow, Bool.and_eq_true, decide_eq_true_eq]
  constructor
  · rintro ⟨⟨⟨hbackground, hon⟩, hle⟩, hright⟩
    exact ⟨⟨hbackground, hon, Nat.le_of_lt_succ hright⟩, hle⟩
  · rintro ⟨⟨hbackground, hon, hright⟩, hle⟩
    exact ⟨⟨⟨hbackground, hon⟩, hle⟩, Nat.lt_succ_of_le hright⟩

/-- On its lines, the window covers the columns from that of its register on. -/
lemma windowCovers_drawingOf (x : Nat) :
    (d.drawingOf video oam y windowLine).windowCovers x = true ↔
      d.ShowsWindow ∧ d.windowY.toNat ≤ y ∧ d.windowX.toNat ≤ x + 7 := by
  have hcovers : (d.drawingOf video oam y windowLine).windowCovers x =
      ((d.drawingOf video oam y windowLine).showsWindow && decide (d.windowX.toNat ≤ x + 7)) := rfl
  rw [hcovers, Bool.and_eq_true, showsWindow_drawingOf, decide_eq_true_eq, and_assoc]

/-- The lines of the window are counted. -/
lemma toNat_nextWindowLine (hshows : d.ShowsWindow) (hy : y < 144)
    (hwindow : windowLine.toNat = y - d.windowY.toNat) :
    (d.drawingOf video oam y windowLine).nextWindowLine.toNat = y + 1 - d.windowY.toNat := by
  unfold Drawing.nextWindowLine
  by_cases hle : d.windowY.toNat ≤ y
  · rw [if_pos (showsWindow_drawingOf.mpr ⟨hshows, hle⟩)]
    have hlt : windowLine < 255 := by
      rw [UInt8.lt_iff_toNat_lt]
      change windowLine.toNat < 255
      omega
    have hsucc := Placed.toNat_succ hlt
    change (windowLine + 1).toNat = _
    omega
  · rw [if_neg fun h => hle (showsWindow_drawingOf.mp h).2]
    change windowLine.toNat = _
    omega

/-- The colours of a line, if the lines of the window were counted correctly. -/
lemma layerColour?_eq (hbackground : Byte.bit d.control 0 = true) (hy : y < 144)
    (hwindow : d.ShowsWindow → windowLine.toNat = y - d.windowY.toNat) {x : Nat} (hx : x < 160) :
    d.layerColour? video x y =
      some ((d.drawingOf video oam y windowLine).layerColour x).toNat := by
  set g := d.drawingOf video oam y windowLine with hg
  have hcovers : g.windowCovers x = true ↔
      d.ShowsWindow ∧ d.windowY.toNat ≤ y ∧ d.windowX.toNat ≤ x + 7 := windowCovers_drawingOf x
  have hmap (second : Bool) : mapAddress second =
      0x8000 + ((if second then 0x1C00 else 0x1800 : Nat) : Int) := by
    cases second <;> rfl
  unfold layerColour? Drawing.layerColour
  by_cases h : g.windowCovers x = true
  · obtain ⟨hshows, hle, hcolumn⟩ := hcovers.mp h
    have hline : g.windowLine.toNat = y - d.windowY.toNat := hwindow hshows
    rw [if_pos h, if_pos ⟨hshows.2.1, hshows.2.2, hle, hcolumn⟩, hmap, hline]
    exact g.mapColour?_eq g.windowMap_le (by have := hshows.2.2; omega) (by omega)
  · have hnot : ¬ (Byte.bit d.control 5 = true ∧ d.windowX.toNat ≤ 166 ∧ d.windowY.toNat ≤ y ∧
        d.windowX.toNat ≤ x + 7) := fun ⟨hon, hright, hle, hcolumn⟩ =>
      h (hcovers.mpr ⟨⟨hbackground, hon, hright⟩, hle, hcolumn⟩)
    rw [if_neg h, if_neg hnot, if_pos (show g.backgroundOn = true from hbackground), hmap]
    exact g.mapColour?_eq g.backgroundMap_le (Nat.mod_lt _ (by decide)) (Nat.mod_lt _ (by decide))

/-- The shades of a line, if the lines of the window were counted correctly. -/
lemma layerShade?_eq (hsprites : Byte.bit d.control 1 = false) (hy : y < 144)
    (hwindow : d.ShowsWindow → windowLine.toNat = y - d.windowY.toNat) (x : Fin 160) :
    d.layerShade? video x y =
      some ((d.drawingOf video oam y windowLine).row.get x).toNat := by
  set g := d.drawingOf video oam y windowLine with hg
  have hon : g.backgroundOn = Byte.bit d.control 0 := rfl
  rw [g.row_of_not_spritesOn hsprites, hon, layerShade?]
  cases hbackground : Byte.bit d.control 0 with
  | false =>
    rw [if_neg Bool.false_ne_true, if_neg Bool.false_ne_true]
    rfl
  | true =>
    rw [if_pos rfl, if_pos rfl, layerColour?_eq hbackground hy hwindow x.isLt, Option.map_some,
      Drawing.toNat_applyPalette _ (g.layerColour_le x)]
    rfl

end

/-! ### A frame, line by line -/

/-- How many lines of the frame are drawn. -/
def drawnLines (d : Display) : Nat :=
  match d.mode with
  | .vblank => 144
  | .hblank => d.line.toNat + 1
  | .search | .transfer => d.line.toNat

/-- A display on its way through a frame, which it started as another one: the registers are the
same, and the lines that are drawn are right. -/
structure Painted (d : Display) (video : Vector UInt8 0x2000) (e : Display) : Prop where
  registers : ∀ oam y windowLine,
    e.drawingOf video oam y windowLine = d.drawingOf video oam y windowLine
  visible : e.mode ≠ .vblank → e.line.toNat < 144
  below : e.mode = .vblank → 144 ≤ e.line.toNat ∧ e.line.toNat ≤ 153
  window : d.ShowsWindow → e.windowLine.toNat = e.drawnLines - d.windowY.toNat
  lines : ∀ (x : Fin 160) (y : Fin 144), y.val < e.drawnLines →
    d.layerShade? video x y = some ((e.frame.get y).get x).toNat

namespace Painted

variable {p : Progress}

/-- At the start of a frame nothing is drawn. -/
lemma first (hmode : d.mode = .search) (hline : d.line = 0) (hwindow : d.windowLine = 0) :
    d.Painted video d := by
  have hdrawn : d.drawnLines = 0 := by
    rw [drawnLines, hmode, hline]
    rfl
  refine ⟨fun _ _ _ => rfl, fun _ => ?_, fun h => ?_, fun _ => ?_, fun x y hy => ?_⟩
  · rw [hline]
    decide
  · rw [hmode] at h
    cases h
  · rw [hwindow, hdrawn, Nat.zero_sub]
    rfl
  · rw [hdrawn] at hy
    exact absurd hy (Nat.not_lt_zero _)

/-- A display that has come to another place in the frame, with the same lines drawn. -/
lemma move {t : Display} (he : d.Painted video e)
    (hregisters : ∀ oam y windowLine,
      t.drawingOf video oam y windowLine = e.drawingOf video oam y windowLine)
    (hvisible : t.mode ≠ .vblank → t.line.toNat < 144)
    (hbelow : t.mode = .vblank → 144 ≤ t.line.toNat ∧ t.line.toNat ≤ 153)
    (hframe : t.frame = e.frame) (hwindow : t.windowLine = e.windowLine)
    (hdrawn : t.drawnLines = e.drawnLines) : d.Painted video t := by
  refine ⟨fun oam y windowLine => ?_, hvisible, hbelow, ?_, ?_⟩
  · rw [hregisters, he.registers]
  · rw [hwindow, hdrawn]
    exact he.window
  · rw [hframe, hdrawn]
    exact he.lines

/-- Drawing a line. -/
lemma draw (he : d.Painted video e) (hsprites : Byte.bit d.control 1 = false)
    (hmode : e.mode = .transfer) (oam : Vector UInt8 0xA0) :
    d.Painted video { e.draw video oam with mode := .hblank } := by
  have hline : e.line.toNat < 144 := he.visible (by simp [hmode])
  have hdrawn : e.drawnLines = e.line.toNat := by simp only [drawnLines, hmode]
  have hdrawing : e.drawing video oam = d.drawingOf video oam e.line.toNat e.windowLine :=
    he.registers oam _ _
  have hdraw : e.draw video oam = { e with
      frame := e.frame.set e.line.toNat (d.drawingOf video oam e.line.toNat e.windowLine).row
      windowLine := (d.drawingOf video oam e.line.toNat e.windowLine).nextWindowLine } := by
    rw [← hdrawing]
    exact dif_pos hline
  have hwindow : d.ShowsWindow → e.windowLine.toNat = e.line.toNat - d.windowY.toNat := by
    rw [← hdrawn]
    exact he.window
  rw [hdraw]
  refine ⟨he.registers, fun _ => hline, (fun h => by cases h), fun hshows => ?_, fun x y hy => ?_⟩
  · exact toNat_nextWindowLine hshows hline (hwindow hshows)
  · have hget : (e.frame.set e.line.toNat (d.drawingOf video oam e.line.toNat e.windowLine).row
        hline).get y = if e.line.toNat = y.val then
          (d.drawingOf video oam e.line.toNat e.windowLine).row else e.frame.get y :=
      Vector.getElem_set _ _
    rw [hget]
    split
    · rename_i heq
      rw [← heq]
      exact layerShade?_eq hsprites hline hwindow x
    · rename_i hne
      have hy' : y.val < e.line.toNat + 1 := hy
      exact he.lines x y (by omega)

/-- The number of the next line. -/
lemma toNat_succ_line (he : d.Painted video e) :
    (e.line + 1).toNat = e.line.toNat + 1 := by
  have hle : e.line.toNat ≤ 153 := by
    by_cases hmode : e.mode = .vblank
    · exact (he.below hmode).2
    · have hline := he.visible hmode
      omega
  have hlt : e.line < 255 :=
    UInt8.lt_iff_toNat_lt.mpr (Nat.lt_of_le_of_lt hle (by decide : 153 < (255 : UInt8).toNat))
  exact Placed.toNat_succ hlt

/-- The end of a line of the screen. -/
lemma endMode_hblank (hp : d.Painted video p.display) (hmode : p.display.mode = .hblank)
    (oam : Vector UInt8 0xA0) :
    d.Painted video (p.endMode video oam).compareLine.display ∧
      (p.endMode video oam).compareLine.display.start =
        lineCycles * p.display.line.toNat + lineCycles := by
  have hline : p.display.line.toNat < 144 := hp.visible (by simp [hmode])
  have hdrawn : p.display.drawnLines = p.display.line.toNat + 1 := by
    simp only [drawnLines, hmode]
  have hsucc := hp.toNat_succ_line
  have hstart : lineCycles * (p.display.line + 1).toNat =
      lineCycles * p.display.line.toNat + lineCycles := by
    rw [hsucc, Nat.mul_succ]
  simp only [Progress.endMode, hmode]
  by_cases hnext : p.display.line + 1 < visibleLines
  · rw [if_pos hnext]
    have hvisible : (p.display.line + 1).toNat < 144 := UInt8.lt_iff_toNat_lt.mp hnext
    exact ⟨hp.move (fun _ _ _ => rfl) (fun _ => hvisible) (fun h => by cases h) rfl rfl
      (hsucc.trans hdrawn.symm), hstart⟩
  · rw [if_neg hnext]
    have hbelow : 144 ≤ (p.display.line + 1).toNat :=
      UInt8.le_iff_toNat_le.mp (UInt8.not_lt.mp hnext)
    refine ⟨hp.move (fun _ _ _ => rfl) (fun h => absurd rfl h) (fun _ => ⟨hbelow, ?_⟩) rfl rfl ?_,
      hstart⟩
    · change (p.display.line + 1).toNat ≤ 153
      omega
    · rw [hdrawn]
      change 144 = _
      omega

/-- The end of a line below the screen, if it is not the last one. -/
lemma endMode_vblank (hp : d.Painted video p.display) (hmode : p.display.mode = .vblank)
    (hend : lineCycles * p.display.line.toNat + lineCycles < frameCycles)
    (oam : Vector UInt8 0xA0) :
    d.Painted video (p.endMode video oam).compareLine.display ∧
      (p.endMode video oam).compareLine.display.start =
        lineCycles * p.display.line.toNat + lineCycles := by
  obtain ⟨hge, -⟩ := hp.below hmode
  have hsucc := hp.toNat_succ_line
  have hle : (p.display.line + 1).toNat ≤ 153 := by
    rw [frameCycles_eq, lineCycles] at hend
    omega
  have hlast : ¬ p.display.line + 1 > lastLine :=
    UInt8.not_lt.mpr (UInt8.le_iff_toNat_le.mpr hle)
  have hdrawn : p.display.drawnLines = 144 := by simp only [drawnLines, hmode]
  simp only [Progress.endMode, hmode, if_neg hlast]
  refine ⟨hp.move (fun _ _ _ => rfl) (fun h => absurd rfl h) (fun _ => ⟨?_, hle⟩) rfl rfl ?_, ?_⟩
  · change 144 ≤ (p.display.line + 1).toNat
    omega
  · exact hdrawn.symm
  · simp only [start, Progress.compareLine, hsucc, Mode.offset, Nat.mul_succ, Nat.add_zero]

/-- The end of a mode within the frame. -/
theorem endMode (hp : d.Painted video p.display) (hsprites : Byte.bit d.control 1 = false)
    (hend : p.display.start + p.display.mode.duration.toNat < frameCycles)
    (oam : Vector UInt8 0xA0) :
    d.Painted video (p.endMode video oam).compareLine.display ∧
      (p.endMode video oam).compareLine.display.start =
        p.display.start + p.display.mode.duration.toNat := by
  unfold start at hend ⊢
  cases hmode : p.display.mode with
  | search =>
    have hdrawn : p.display.drawnLines = p.display.line.toNat := by simp only [drawnLines, hmode]
    have hline : p.display.line.toNat < 144 := hp.visible (by simp [hmode])
    simp only [Progress.endMode, hmode]
    exact ⟨hp.move (fun _ _ _ => rfl) (fun _ => hline) (fun h => by cases h) rfl rfl hdrawn.symm,
      rfl⟩
  | transfer =>
    obtain ⟨-, hsame⟩ := Placed.draw_place p.display video oam
    have hline : (p.display.draw video oam).line.toNat < 144 := by
      rw [hsame]
      exact hp.visible (by simp [hmode])
    simp only [Progress.endMode, hmode]
    refine ⟨(hp.draw hsprites hmode oam).move (fun _ _ _ => rfl) (fun _ => hline)
      (fun h => by cases h) rfl rfl rfl, ?_⟩
    change lineCycles * (p.display.draw video oam).line.toNat + 252 = _
    rw [hsame]
    rfl
  | hblank => exact hp.endMode_hblank hmode oam
  | vblank =>
    rw [hmode] at hend
    exact hp.endMode_vblank hmode hend oam

end Painted

/-- A display on its way through a frame, at a place of it. -/
structure Painting (d : Display) (video : Vector UInt8 0x2000) (n : Nat) (e : Display) : Prop
    extends d.Painted video e where
  position : e.position = n
  /-- The current mode is not over. -/
  dots : e.dots < e.mode.duration

namespace Painting

variable {n : Nat}

/-- Going through the modes draws one line after another. -/
lemma run {p : Progress} {dots : UInt32} (hp : d.Painted video p.display)
    (hsprites : Byte.bit d.control 1 = false) (hdots : p.display.start + dots.toNat < frameCycles)
    (oam : Vector UInt8 0xA0) :
    d.Painting video (p.display.start + dots.toNat) (Progress.run video oam p dots).display := by
  fun_induction Progress.run video oam p dots with
  | case1 p dots hover ih =>
    have hle := UInt32.le_iff_toNat_le.mp hover
    have hsub := UInt32.toNat_sub_of_le _ _ hover
    obtain ⟨hnext, hstart⟩ := hp.endMode hsprites (by omega) oam
    have hsum : (p.endMode video oam).compareLine.display.start +
        (dots - p.display.mode.duration).toNat = p.display.start + dots.toNat := by
      rw [hstart, hsub]
      omega
    rw [← hsum] at hdots ⊢
    exact ih hnext hdots
  | case2 p dots hover =>
    exact ⟨hp.move (fun _ _ _ => rfl) hp.visible hp.below rfl rfl rfl, rfl, UInt32.not_le.mp hover⟩

/-- Time passes within the frame. -/
theorem advance (he : d.Painting video n e) (hon : d.enabled = true)
    (hsprites : Byte.bit d.control 1 = false) {cycles : UInt32}
    (hframe : n + cycles.toNat < frameCycles) (oam : Vector UInt8 0xA0) :
    d.Painting video (n + cycles.toNat) (e.advance cycles video oam).display := by
  have hcontrol : e.control = d.control :=
    congrArg Drawing.control (he.registers oam 0 0)
  have hon' : e.enabled = true := by
    rw [enabled, hcontrol]
    exact hon
  have hposition : e.start + e.dots.toNat = n := he.position
  have hsum : (e.dots + cycles).toNat = e.dots.toNat + cycles.toNat := by
    rw [UInt32.toNat_add]
    rw [frameCycles_eq] at hframe
    exact Nat.mod_eq_of_lt (by omega)
  have hfits : e.start + (e.dots + cycles).toNat < frameCycles := by omega
  have hrun := run (p := { display := e }) he.toPainted hsprites hfits oam
  rw [advance_of_enabled hon', ← hposition, Nat.add_assoc, ← hsum]
  exact hrun

/-- Several stretches of time pass within the frame. -/
lemma foldl_advance (he : d.Painting video n e) (hon : d.enabled = true)
    (hsprites : Byte.bit d.control 1 = false) (slices : List (UInt32 × Vector UInt8 0xA0))
    (hframe : n + (slices.map (·.1.toNat)).sum < frameCycles) :
    d.Painting video (n + (slices.map (·.1.toNat)).sum)
      (slices.foldl (fun e slice => (e.advance slice.1 video slice.2).display) e) := by
  induction slices generalizing n e with
  | nil => exact he
  | cons slice slices ih =>
    rw [List.map_cons, List.sum_cons, ← Nat.add_assoc] at hframe ⊢
    exact ih (he.advance hon hsprites (by omega) slice.2) hframe

/-- When the last line is drawn, the whole frame is. -/
lemma drawnLines_eq (he : d.Painting video n e) (hn : lineCycles * 143 + 252 ≤ n) :
    e.drawnLines = 144 := by
  have hposition : e.start + e.dots.toNat = n := he.position
  have hdots : e.dots.toNat < e.mode.duration.toNat := UInt32.lt_iff_toNat_lt.mp he.dots
  have hline := he.visible
  unfold start lineCycles at hposition
  unfold lineCycles at hn
  unfold drawnLines
  cases hmode : e.mode with
  | vblank => rfl
  | hblank | search | transfer =>
    have hline' := hline (by simp [hmode])
    simp only [hmode, Mode.offset, Mode.duration, UInt32.reduceToNat] at hposition hdots ⊢
    omega

end Painting

/-- The display draws the background and the window of a whole frame, however the time is divided.
It starts the frame without sprites, and no register and no byte of the video memory changes until
the last line is drawn. -/
theorem layers_of_frame (d : Display) (video : Vector UInt8 0x2000)
    (slices : List (UInt32 × Vector UInt8 0xA0)) (hon : d.enabled = true)
    (hsprites : Byte.bit d.control 1 = false) (hmode : d.mode = .search) (hline : d.line = 0)
    (hdots : d.dots = 0) (hwindow : d.windowLine = 0)
    (hdrawn : 143 * 456 + 252 ≤ (slices.map (·.1.toNat)).sum)
    (hframe : (slices.map (·.1.toNat)).sum ≤ 70223) :
    let final := slices.foldl (fun e slice => (e.advance slice.1 video slice.2).display) d
    ∀ (x : Fin 160) (y : Fin 144),
      d.layerShade? video x y = some ((final.frame.get y).get x).toNat := by
  intro final x y
  have hposition : d.position = 0 := by
    rw [position, start, hmode, hline, hdots]
    rfl
  have hfirst : d.Painting video 0 d :=
    ⟨.first hmode hline hwindow, hposition, by rw [hdots]; exact d.mode.duration_pos⟩
  have hfinal : d.Painting video (0 + (slices.map (·.1.toNat)).sum) final :=
    hfirst.foldl_advance hon hsprites slices (by rw [frameCycles_eq]; omega)
  rw [Nat.zero_add] at hfinal
  refine hfinal.lines x y ?_
  rw [hfinal.drawnLines_eq (by rw [lineCycles]; omega)]
  exact y.isLt

/-- A display that shows the window in the lower right corner of the screen. -/
def windowed : Display := { postBoot with control := 0xB1, windowX := 87, windowY := 72 }

/-- What `layers_of_frame` says about the corner of the window, if all bytes of the video memory are
the same and the frame is drawn in two parts. -/
theorem layers_of_frame_windowed :
    let video := Vector.replicate 0x2000 0xF0
    let oam := Vector.replicate 0xA0 0
    let final := (windowed.advance 40000 video oam).display.advance 30000 video oam
    ((final.display.frame.get 72).get 80).toNat = 3 := by
  intro video oam final
  have hbyte (address : Int) (h : 0x8000 ≤ address ∧ address < 0xA000) :
      videoByte? video address = some 0xF0 := by
    rw [videoByte?, if_pos h.1]
    exact (Vector.getElem?_replicate).trans (if_pos (by omega))
  have hcolour : windowed.layerColour? video 80 72 = some 3 := by
    rw [layerColour?, if_pos (by decide), mapColour?, hbyte _ (by decide), Option.bind_eq_bind,
      Option.bind_some, hbyte _ (by decide), hbyte _ (by decide)]
    rfl
  have hshade : windowed.layerShade? video 80 72 = some 3 := by
    rw [layerShade?, if_pos (by decide), hcolour]
    rfl
  have hframe := layers_of_frame windowed video [(40000, oam), (30000, oam)] (by decide) (by decide)
    rfl rfl rfl rfl (by decide) (by decide) 80 72
  exact (Option.some.inj (hshade.symm.trans hframe)).symm

end Display

end Handheld
