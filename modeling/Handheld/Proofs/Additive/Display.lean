import Handheld.Proofs.Closure
import Handheld.Proofs.FrameCounter

/-!
# Time in two parts: the display

The display goes through its modes for as long as its dots last.  A way through the modes depends
neither on the dots that the display remembers (`Progress.run_setDots`) nor on what was asked for
before (`Progress.run_after`), and it may be interrupted anywhere (`Progress.run_add`).  The main
statement is `Display.advance_add`: the display does the same whether a stretch of time passes at
once or in two parts.
-/

namespace Handheld

namespace Sources

/-- The union may be taken in any order. -/
lemma union_assoc (s t u : Sources) : (s.union t).union u = s.union (t.union u) := by
  simp only [union, Bool.or_assoc]

/-- The empty set adds nothing. -/
lemma union_empty (s : Sources) : s.union {} = s := by
  simp only [union, Bool.or_false]

end Sources

namespace Display

namespace Progress

variable {video : Vector UInt8 0x2000} {oam : Vector UInt8 0xA0} {p : Progress} {dots : UInt32}

/-! ### The dots -/

/-- The display on its way through the modes, with other dots. -/
abbrev setDots (p : Progress) (dots : UInt32) : Progress :=
  { p with display := { p.display with dots := dots } }

/-- Drawing a line does not look at the dots. -/
lemma draw_setDots (d : Display) (dots : UInt32) :
    ({ d with dots := dots } : Display).draw video oam =
      { d.draw video oam with dots := dots } := by
  unfold draw
  simp only
  split
  · rfl
  · rfl

/-- The end of a mode does not look at the dots. -/
lemma endMode_setDots (p : Progress) (dots : UInt32) :
    ((p.setDots dots).endMode video oam).compareLine =
      ((p.endMode video oam).compareLine).setDots dots := by
  unfold endMode
  simp only [setDots]
  split
  · rfl
  · rw [draw_setDots]
    rfl
  · rfl
  · by_cases hlast : p.display.line + 1 > lastLine
    · simp only [if_pos hlast]
      rfl
    · simp only [if_neg hlast]
      rfl

/-- The way through the modes does not look at the dots that it overwrites. -/
theorem run_setDots (p : Progress) (k dots : UInt32) :
    run video oam (p.setDots k) dots = run video oam p dots := by
  fun_induction run video oam p dots with
  | case1 p dots hover ih =>
    rw [run_of_le video oam (show (p.setDots k).display.mode.duration ≤ dots from hover),
      endMode_setDots]
    exact ih
  | case2 p dots hover =>
    rw [run_of_lt video oam
      (show dots < (p.setDots k).display.mode.duration from UInt32.not_le.mp hover)]

/-- A way through the modes may be interrupted anywhere. -/
theorem run_add (p : Progress) (dots more : UInt32) (h : dots.toNat + more.toNat < 2 ^ 32) :
    run video oam p (dots + more) =
      run video oam (run video oam p dots) ((run video oam p dots).display.dots + more) := by
  fun_induction run video oam p dots with
  | case1 p dots hover ih =>
    have hle := UInt32.le_iff_toNat_le.mp hover
    have hrest := UInt32.toNat_sub_of_le _ _ hover
    have hsum : (dots + more).toNat = dots.toNat + more.toNat := by
      rw [UInt32.toNat_add]
      exact Nat.mod_eq_of_lt h
    have hsum' : (dots - p.display.mode.duration + more).toNat =
        dots.toNat - p.display.mode.duration.toNat + more.toNat := by
      rw [UInt32.toNat_add, hrest]
      exact Nat.mod_eq_of_lt (by omega)
    have hover' : p.display.mode.duration ≤ dots + more := by
      rw [UInt32.le_iff_toNat_le, hsum]
      omega
    have hmore : dots + more - p.display.mode.duration =
        dots - p.display.mode.duration + more := by
      apply UInt32.toNat_inj.mp
      rw [UInt32.toNat_sub_of_le _ _ hover', hsum, hsum']
      omega
    rw [run_of_le video oam hover', hmore]
    exact ih (by omega)
  | case2 p dots hover => exact (run_setDots p dots (dots + more)).symm

/-! ### What was asked for -/

/-- A way through the modes behind another one, on which interrupts were asked for and frames were
completed. -/
def after (p : Progress) (requests : Sources) (frameDone : Bool) : Progress :=
  { p with
    requests := requests.union p.requests
    frameDone := frameDone || p.frameDone }

/-- Entering a mode adds to what was asked for. -/
lemma enter_after (p : Progress) (requests : Sources) (frameDone : Bool) (m : Mode) :
    (p.after requests frameDone).enter m = (p.enter m).after requests frameDone := by
  simp only [enter, after, Sources.union_assoc]

/-- A comparison of the line adds to what was asked for. -/
lemma compareLine_after (p : Progress) (requests : Sources) (frameDone : Bool) :
    (p.after requests frameDone).compareLine = p.compareLine.after requests frameDone := by
  simp only [compareLine, after, Sources.union_assoc]

/-- The end of a mode adds to what was asked for. -/
lemma endMode_after (p : Progress) (requests : Sources) (frameDone : Bool) :
    (p.after requests frameDone).endMode video oam =
      (p.endMode video oam).after requests frameDone := by
  have hdisplay : (p.after requests frameDone).display = p.display := rfl
  unfold endMode
  simp only [hdisplay]
  split
  · exact enter_after p requests frameDone _
  · exact enter_after { p with display := p.display.draw video oam } requests frameDone _
  · exact enter_after { p with display := { p.display with line := p.display.line + 1 } }
      requests frameDone _
  · by_cases hlast : p.display.line + 1 > lastLine
    · simp only [if_pos hlast, enter, after, Sources.union_assoc, Bool.or_true]
    · simp only [if_neg hlast, after]

/-- A way through the modes adds to what was asked for. -/
theorem run_after (p : Progress) (requests : Sources) (frameDone : Bool) (dots : UInt32) :
    run video oam (p.after requests frameDone) dots =
      (run video oam p dots).after requests frameDone := by
  fun_induction run video oam p dots with
  | case1 p dots hover ih =>
    rw [run_of_le video oam
      (show (p.after requests frameDone).display.mode.duration ≤ dots from hover), endMode_after,
      compareLine_after]
    exact ih
  | case2 p dots hover =>
    rw [run_of_lt video oam
      (show dots < (p.after requests frameDone).display.mode.duration from UInt32.not_le.mp hover)]
    rfl

/-- Whatever was asked for before, the rest of a way depends on the display only. -/
lemma run_eq_after (p : Progress) (dots : UInt32) : run video oam p dots =
    (run video oam { display := p.display } dots).after p.requests p.frameDone := by
  have hstart : ({ display := p.display } : Progress).after p.requests p.frameDone = p := by
    simp only [after, Sources.union_empty, Bool.or_false]
  rw [← run_after, hstart]

end Progress

/-- A display that is on goes through its modes. -/
lemma advance_of_enabled {d : Display} (hon : d.enabled = true) (cycles : UInt32)
    (video : Vector UInt8 0x2000) (oam : Vector UInt8 0xA0) :
    d.advance cycles video oam = Progress.run video oam { display := d } (d.dots + cycles) :=
  if_pos hon

/-- A display that is off does nothing. -/
lemma advance_of_not_enabled {d : Display} (hoff : ¬ d.enabled = true) (cycles : UInt32)
    (video : Vector UInt8 0x2000) (oam : Vector UInt8 0xA0) :
    d.advance cycles video oam = { display := d } :=
  if_neg hoff

/-- The display does the same in two parts, and asks for everything that it asks for in either. -/
theorem advance_add (d : Display) (x y : UInt32) (video : Vector UInt8 0x2000)
    (oam : Vector UInt8 0xA0)
    (hfits : d.enabled = true → d.dots.toNat + (x.toNat + y.toNat) < 2 ^ 32) :
    let first := d.advance x video oam
    d.advance (x + y) video oam =
      (first.display.advance y video oam).after first.requests first.frameDone := by
  intro first
  by_cases hon : d.enabled = true
  · have hfirst : first = Progress.run video oam { display := d } (d.dots + x) :=
      advance_of_enabled hon x video oam
    have hon' : first.display.enabled = true := by
      rw [hfirst, enabled, control_run]
      exact hon
    have hsum : (d.dots + x).toNat + y.toNat < 2 ^ 32 := by
      have := hfits hon
      rw [UInt32.toNat_add]
      omega
    rw [advance_of_enabled hon, advance_of_enabled hon', ← UInt32.add_assoc,
      Progress.run_add _ _ _ hsum, ← hfirst, Progress.run_eq_after]
  · have hfirst : first = { display := d } := advance_of_not_enabled hon x video oam
    rw [advance_of_not_enabled hon, hfirst, advance_of_not_enabled hon]
    rfl

end Display

end Handheld
