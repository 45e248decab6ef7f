import Handheld.Proofs.Additive.Display
import Handheld.Proofs.Checked.Painter

/-!
# A display that never traps

A frame is stored as a single array of pixels.  Drawing a line replaces a part of this array
(`Frame.checkedSetLine`), handing the frame to the host looks up every pixel at its place
(`Frame.checkedPresent`), and while time passes the display counts its lines in a byte.  A display
that stays on the lines up to a given one, which need not be a line of a frame, does the same as
with total operations: see `Display.checkedAdvance_eq`.
-/

namespace Handheld

namespace Frame

/-- Replace a line of the array of pixels. -/
def checkedSetLine (f : Frame) (y : Nat) (row : Row) : Checked Frame :=
  if (y + 1) * 160 ≤ size then Checked.set f y row else .error .index

/-- Hand a frame to the host, pixel by pixel. -/
def checkedPresent {η : Type} [Host η] (f : Frame) (host : η) : Checked η := do
  let host ← Fin.foldlM 144 (fun host y =>
    Fin.foldlM 160 (fun host x => do
      let shade ← Checked.get f.flatten (y.val * 160 + x.val)
      return Host.putPixel host shade x.val y.val) host) host
  return Host.frameSync host

/-- The lines of a frame are in the array. -/
lemma checkedSetLine_of_lt (f : Frame) {y : Nat} (hy : y < 144) (row : Row) :
    f.checkedSetLine y row = .ok (f.set y row) := by
  have hsize : (y + 1) * 160 ≤ size := by
    unfold size
    omega
  rw [checkedSetLine, if_pos hsize, Checked.set_of_lt hy]

/-- The pixels of a frame are in the array. -/
lemma get_flatten (f : Frame) (y : Fin 144) (x : Fin 160) :
    Checked.get f.flatten (y.val * 160 + x.val) = .ok ((f.get y).get x) := by
  have hy := y.isLt
  have hx := x.isLt
  have hi : y.val * 160 + x.val < 144 * 160 := by omega
  have hdiv : (y.val * 160 + x.val) / 160 = y.val := by omega
  have hmod : (y.val * 160 + x.val) % 160 = x.val := by omega
  rw [Checked.get_of_lt hi]
  simp only [Vector.getElem_flatten hi, hdiv, hmod]
  rfl

/-- Every frame can be handed to the host. -/
lemma checkedPresent_eq {η : Type} [Host η] (f : Frame) (host : η) :
    f.checkedPresent host = .ok (f.present host) := by
  simp only [checkedPresent, get_flatten, Checked.ok_bind, Fin.foldlM_pure]
  rfl

end Frame

namespace Display

variable {d : Display} {last : UInt8} {video : Vector UInt8 0x2000} {oam : Vector UInt8 0xA0}

/-- Draw the current line, if it is on the screen. -/
def checkedDraw (d : Display) (video : Vector UInt8 0x2000) (oam : Vector UInt8 0xA0) :
    Checked Display :=
  if d.line.toNat < 144 then do
    let (row, windowLine) ← (d.drawing video oam).checkedRow
    let frame ← d.frame.checkedSetLine d.line.toNat row
    return { d with frame := frame, windowLine := windowLine }
  else return d

/-- Drawing never traps. -/
lemma checkedDraw_eq (d : Display) (video : Vector UInt8 0x2000) (oam : Vector UInt8 0xA0) :
    d.checkedDraw video oam = .ok (d.draw video oam) := by
  unfold checkedDraw draw
  split
  · rename_i hline
    rw [Drawing.checkedRow_eq, Checked.ok_bind]
    simp only
    rw [Frame.checkedSetLine_of_lt _ hline]
    rfl
  · rfl

namespace Progress

variable {p : Progress}

/-- The end of the current mode. -/
def checkedEndMode (p : Progress) (video : Vector UInt8 0x2000) (oam : Vector UInt8 0xA0) :
    Checked Progress :=
  let d := p.display
  match d.mode with
  | .search => return p.enter .transfer
  | .transfer => do
    let drawn ← d.checkedDraw video oam
    return { p with display := drawn }.enter .hblank
  | .hblank => do
    let line ← Checked.succ d.line
    return { p with display := { d with line := line } }.enter
      (if line < visibleLines then .search else .vblank)
  | .vblank => do
    let line ← Checked.succ d.line
    if line > lastLine then
      return { p with
        display := { d with line := 0, windowLine := 0, vblankRaised := false }
        frameDone := true }.enter .search
    else return { p with display := { d with line := line } }

/-- Go through the modes for as long as `dots` last. -/
def checkedRun (video : Vector UInt8 0x2000) (oam : Vector UInt8 0xA0) (p : Progress)
    (dots : UInt32) : Checked Progress := do
  let (dots, p) ← Checked.countdown (·.display.mode.duration) (fun _ => true)
    (fun p => return (← p.checkedEndMode video oam).compareLine) dots p
  return { p with display := { p.display with dots := dots } }

/-- A mode ends without a trap on all lines but the one with the greatest number. -/
lemma checkedEndMode_eq (hline : p.display.line.toNat < 255) (video : Vector UInt8 0x2000)
    (oam : Vector UInt8 0xA0) : p.checkedEndMode video oam = .ok (p.endMode video oam) := by
  unfold checkedEndMode endMode
  simp only [checkedDraw_eq, Checked.succ_of_lt hline, Checked.ok_bind]
  cases p.display.mode with
  | search => rfl
  | transfer => rfl
  | hblank => rfl
  | vblank =>
    simp only
    split
    · rfl
    · rfl

-- On the line with the greatest number a mode ends in a trap.
example (d : Display) (video : Vector UInt8 0x2000) (oam : Vector UInt8 0xA0) :
    checkedEndMode { display := { d with mode := .hblank, line := 0xFF } } video oam =
      .error .increment := rfl

/-- The way through the modes does not trap. -/
lemma checkedRun_eq (hlast : lastLine ≤ last) (hlt : last.toNat < 255)
    (hp : p.display.Placed last) (dots : UInt32) :
    checkedRun video oam p dots = .ok (run video oam p dots) := by
  fun_induction run video oam p dots with
  | case1 p dots hover ih =>
    have hline := UInt8.le_iff_toNat_le.mp hp.line
    have hround : (fun p : Progress => return (← p.checkedEndMode video oam).compareLine) p =
        (.ok (p.endMode video oam).compareLine : Checked Progress) := by
      simp only [checkedEndMode_eq (Nat.lt_of_le_of_lt hline hlt)]
      rfl
    rw [← ih ((hp.endMode hlast video oam).congr rfl rfl rfl), checkedRun, checkedRun,
      Checked.countdown_of_le (s := p) p.display.mode.duration_pos hover rfl hround]
  | case2 p dots hover =>
    rw [checkedRun, Checked.countdown_of_lt (s := p) (UInt32.not_le.mp hover)]
    rfl

end Progress

/-- Let cycles pass. -/
def checkedAdvance (d : Display) (cycles : UInt32) (video : Vector UInt8 0x2000)
    (oam : Vector UInt8 0xA0) : Checked Progress :=
  if d.enabled then Progress.checkedRun video oam { display := d } (d.dots + cycles)
  else return { display := d }

/-- A display that stays up to a line that is not the last one of all numbers lets time pass. -/
theorem checkedAdvance_eq (hlast : lastLine ≤ last) (hlt : last.toNat < 255) (hd : d.Within last)
    (cycles : UInt32) (video : Vector UInt8 0x2000) (oam : Vector UInt8 0xA0) :
    d.checkedAdvance cycles video oam = .ok (d.advance cycles video oam) := by
  unfold checkedAdvance
  by_cases hon : d.enabled = true
  · rw [if_pos hon, advance_of_enabled hon, Progress.checkedRun_eq hlast hlt (hd.placed hon)]
  · rw [if_neg hon, advance_of_not_enabled hon]
    rfl

end Display

end Handheld
