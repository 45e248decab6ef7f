import Handheld.Display
import Handheld.Proofs.Record

/-!
# The display in saved states

Loading refuses a display that is on a line that there is not, or that has stayed longer in a mode
than the mode lasts; `Display.Acceptable` excludes both.  It does not last: a display that is on and
waits for the end of the last line in a mode of the screen goes on to the line after it.  What lasts
is `Display.Within last`, which says that a display stays up to the line `last` below the screen.
`Display.WellFormed` is this for the last line of a frame, and holds for a fresh display.

`Display.Within` survives every write (`Display.Within.write`).  While time passes, a display goes
through several modes, and only the place that it has reached in the frame is right in between: this
is `Display.Placed`, which each end of a mode keeps (`Display.Placed.endMode`), so that it holds at
the end of a run, where the dots are put right as well (`Display.Within.advance`).

The main statements are `Display.carry?_record` for the registers and counters, and
`Display.carry?_frameRecord` for the picture.
-/

namespace Handheld

namespace Frame

/-- The bytes of a picture are its pixels. -/
lemma length_toList (f : Frame) : f.toList.length = size := by
  simp [toList, size]

/-- A picture that is cut into lines again is the same picture. -/
lemma ofArray_toList (f : Frame) : ofArray f.toList.toArray = f := by
  apply Vector.ext
  intro y hy
  apply Vector.ext
  intro x hx
  have hi : 160 * y + x < 144 * 160 := by omega
  have hdiv : (160 * y + x) / 160 = y := by omega
  have hmod : (160 * y + x) % 160 = x := by omega
  have hget : f.flatten[160 * y + x] = f[y][x] := by
    simp only [Vector.getElem_flatten hi, hdiv, hmod]
  simpa [ofArray, toList, Array.getD, hi] using hget

end Frame

namespace Display

/-- A display on its way through a frame, up to a given line. -/
structure Placed (last : UInt8) (d : Display) : Prop where
  /-- There are four events to select. -/
  select : d.select &&& 0x78 = d.select
  line : d.line ≤ last
  /-- The given line is below the screen. -/
  last : d.line = last → d.mode = .vblank

/-- A display that loading leaves as it is. -/
structure Acceptable (d : Display) : Prop where
  /-- There are four events to select. -/
  select : d.select &&& 0x78 = d.select
  line : d.line ≤ lastLine
  /-- The current mode is not over. -/
  dots : d.dots < d.mode.duration

/-- A display that does not leave the lines up to a given one. -/
structure Within (last : UInt8) (d : Display) : Prop where
  /-- There are four events to select. -/
  select : d.select &&& 0x78 = d.select
  line : d.line ≤ last
  /-- The current mode is not over. -/
  dots : d.dots < d.mode.duration
  /-- The given line is below the screen, as long as the display is on. -/
  confined : d.enabled = true → d.line = last → d.mode = .vblank

/-- A display that can be saved at any time from now on. -/
abbrev WellFormed : Display → Prop := Within lastLine

variable {d s t : Display} {last : UInt8}

/-- A display that does not leave the lines of a frame is acceptable. -/
lemma WellFormed.toAcceptable (hd : d.WellFormed) : d.Acceptable :=
  ⟨hd.select, hd.line, hd.dots⟩

/-- The first line is on the screen. -/
lemma first_ne_of_lastLine_le (hlast : lastLine ≤ last) : 0 ≠ last := by
  rintro rfl
  exact absurd hlast (by decide)

/-- The display of a console that has just been switched on can be saved. -/
lemma wellFormed_cold : cold.WellFormed where
  select := UInt8.zero_and
  line := UInt8.zero_le
  dots := (by decide : (0 : UInt32) < 204)
  confined _ h := absurd h (by decide)

/-- The display after the start-up program can be saved. -/
lemma wellFormed_postBoot : postBoot.WellFormed where
  select := UInt8.zero_and
  line := UInt8.zero_le
  dots := (by decide : (0 : UInt32) < 80)
  confined _ h := absurd h (by decide)

/-! ### Time -/

namespace Placed

variable {p : Progress}

/-- A display at the same place of a frame. -/
lemma congr (hd : d.Placed last) (hselect : t.select = d.select) (hline : t.line = d.line)
    (hmode : t.mode = d.mode) : t.Placed last := by
  refine ⟨?_, ?_, ?_⟩
  · rw [hselect]
    exact hd.select
  · rw [hline]
    exact hd.line
  · rw [hline, hmode]
    exact hd.last

/-- Drawing a line stays at the same place. -/
lemma draw_place (d : Display) (video : Vector UInt8 0x2000) (oam : Vector UInt8 0xA0) :
    (d.draw video oam).select = d.select ∧ (d.draw video oam).line = d.line := by
  unfold Display.draw
  split
  · exact ⟨rfl, rfl⟩
  · exact ⟨rfl, rfl⟩

/-- The line after a line that is not the greatest number. -/
lemma toNat_succ {line : UInt8} (h : line < last) : (line + 1).toNat = line.toNat + 1 := by
  have hlt : line.toNat < last.toNat := UInt8.lt_iff_toNat_lt.mp h
  have hlast := last.toNat_lt
  rw [UInt8.toNat_add]
  change (line.toNat + 1) % 256 = line.toNat + 1
  omega

/-- In a mode of the screen there is another line. -/
lemma succ_le (hd : d.Placed last) (hmode : d.mode ≠ .vblank) : d.line + 1 ≤ last := by
  have hlt : d.line < last := UInt8.lt_of_le_of_ne hd.line fun h => hmode (hd.last h)
  have hsucc := toNat_succ hlt
  rw [UInt8.lt_iff_toNat_lt] at hlt
  rw [UInt8.le_iff_toNat_le]
  omega

/-- The end of a mode leads to a place of the frame. -/
theorem endMode (hlast : lastLine ≤ last) (hp : p.display.Placed last)
    (video : Vector UInt8 0x2000) (oam : Vector UInt8 0xA0) :
    (p.endMode video oam).display.Placed last := by
  have hne (hmode : p.display.mode ≠ .vblank) : p.display.line ≠ last :=
    fun h => hmode (hp.last h)
  unfold Progress.endMode
  simp only
  split
  · rename_i hmode
    exact ⟨hp.select, hp.line, fun h => absurd h (hne (by simp [hmode]))⟩
  · rename_i hmode
    obtain ⟨hselect, hline⟩ := draw_place p.display video oam
    have hscreen : p.display.line ≠ last := hne (by simp [hmode])
    refine ⟨?_, ?_, fun h => absurd (hline.symm.trans h) hscreen⟩
    · exact (congrArg (· &&& 0x78) hselect).trans (hp.select.trans hselect.symm)
    · change (p.display.draw video oam).line ≤ last
      rw [hline]
      exact hp.line
  · rename_i hmode
    refine ⟨hp.select, hp.succ_le (by simp [hmode]), fun h => ?_⟩
    have hvisible : ¬ p.display.line + 1 < visibleLines := by
      change p.display.line + 1 = last at h
      rw [h, UInt8.not_lt]
      exact UInt8.le_trans (by decide) hlast
    exact if_neg hvisible
  · split
    · exact ⟨hp.select, UInt8.zero_le, fun h => absurd h (first_ne_of_lastLine_le hlast)⟩
    · rename_i hmode hline
      exact ⟨hp.select, UInt8.le_trans (UInt8.not_lt.mp hline) hlast, fun _ => hmode⟩

end Placed

/-- Going through the modes ends at a place of the frame, in a mode that is not over. -/
lemma Placed.run {p : Progress} {dots : UInt32} (hlast : lastLine ≤ last)
    (hp : p.display.Placed last) (video : Vector UInt8 0x2000) (oam : Vector UInt8 0xA0) :
    (Progress.run video oam p dots).display.Within last := by
  fun_induction Progress.run video oam p dots with
  | case1 p dots hover ih => exact ih ((hp.endMode hlast video oam).congr rfl rfl rfl)
  | case2 p dots hover => exact ⟨hp.select, hp.line, UInt32.not_le.mp hover, fun _ => hp.last⟩

namespace Within

/-- A display that is on is on its way through a frame. -/
lemma placed (hd : d.Within last) (hon : d.enabled = true) : d.Placed last :=
  ⟨hd.select, hd.line, hd.confined hon⟩

/-- Time passes from mode to mode. -/
theorem advance (hlast : lastLine ≤ last) (hd : d.Within last) (cycles : UInt32)
    (video : Vector UInt8 0x2000) (oam : Vector UInt8 0xA0) :
    (d.advance cycles video oam).display.Within last := by
  unfold Display.advance
  split
  · rename_i hon
    exact Placed.run hlast (hd.placed hon) video oam
  · exact hd

/-! ### Registers -/

/-- Switching the display off or on puts it at the start of a frame. -/
lemma writeControl (hlast : lastLine ≤ last) (hd : d.Within last) (v : UInt8) :
    (d.writeControl v).Within last := by
  have hfirst := first_ne_of_lastLine_le hlast
  have hnew : ({ d with control := v } : Display).enabled = Byte.bit v 7 := rfl
  cases hold : d.enabled <;> cases hv : Byte.bit v 7
  all_goals simp only [Display.writeControl, hold, hnew, hv]
  case false.false =>
    refine ⟨hd.select, hd.line, hd.dots, fun hon => ?_⟩
    cases hv.symm.trans hon
  case false.true =>
    exact ⟨hd.select, UInt8.zero_le, Mode.duration_pos .search, fun _ h => absurd h hfirst⟩
  case true.false =>
    exact ⟨hd.select, UInt8.zero_le, Mode.duration_pos .hblank, fun _ h => absurd h hfirst⟩
  case true.true => exact ⟨hd.select, hd.line, hd.dots, fun _ => hd.confined hold⟩

/-- A write stays up to the same line. -/
theorem write (hlast : lastLine ≤ last) (hd : d.Within last) (r v : UInt8) :
    (d.write r v).Within last := by
  unfold Display.write
  split
  · exact hd.writeControl hlast v
  · exact ⟨Byte.and_mask_mask _ _, hd.line, hd.dots, hd.confined⟩
  all_goals exact ⟨hd.select, hd.line, hd.dots, hd.confined⟩

end Within

/-- A property of displays that writes and time keep. -/
structure Lasting (P : Display → Prop) : Prop where
  write : ∀ {d : Display}, P d → ∀ r v, P (d.write r v)
  advance : ∀ {d : Display}, P d → ∀ cycles video oam, P (d.advance cycles video oam).display

lemma lasting_within (hlast : lastLine ≤ last) : Lasting (Within last) :=
  ⟨Within.write hlast, Within.advance hlast⟩

lemma lasting_wellFormed : Lasting WellFormed := lasting_within UInt8.le_rfl

lemma lasting_true : Lasting fun _ => True := ⟨fun _ _ _ => trivial, fun _ _ _ _ => trivial⟩

/-! ### Loading -/

/-- The place in the frame goes over first. -/
lemma carry?_place (s t : Display) :
    Record.carry? (record.take 4) s t = some { t with
      dots := s.dots, mode := s.mode, line := s.line, lineCompare := s.lineCompare } := by
  simp [record]

/-- The place of an acceptable display is not refused. -/
lemma carry?_checks (hs : s.Acceptable) (hdots : t.dots = s.dots) (hmode : t.mode = s.mode)
    (hline : t.line = s.line) : Record.carry? ((record.drop 4).take 2) s t = some t := by
  have hplace : t.line ≤ lastLine := by
    rw [hline]
    exact hs.line
  have hover : t.dots < t.mode.duration := by
    rw [hdots, hmode]
    exact hs.dots
  simp [record, hplace, hover]

/-- The registers go over after the place. -/
lemma carry?_registers (hs : s.Acceptable) (t : Display) :
    Record.carry? (record.drop 6) s t = some { s with
      dots := t.dots, mode := t.mode, line := t.line, lineCompare := t.lineCompare,
      frame := t.frame } := by
  have hmasked : Record.carry? (record.drop 6) s t = some { s with
      dots := t.dots, mode := t.mode, line := t.line, lineCompare := t.lineCompare,
      select := s.select &&& 0x78, frame := t.frame } := rfl
  rw [hmasked, hs.select]

/-- An acceptable display goes over, except for the picture. -/
theorem carry?_record (hs : s.Acceptable) (t : Display) :
    Record.carry? record s t = some { s with frame := t.frame } := by
  have hchecked := Record.carry?_trans (carry?_place s t) (carry?_checks hs rfl rfl rfl)
  exact Record.carry?_trans hchecked (carry?_registers hs _)

/-- A display that is behind the last line is refused. -/
lemma refuses_record (hline : lastLine < s.line) (t : Display) :
    Record.Refuses record s t .displayLine := by
  refine Record.refuses_trans (carry?_place s t) (Record.refuses_check ?_ _)
  exact decide_eq_false (UInt8.not_le.mpr hline)

/-- The picture goes over. -/
theorem carry?_frameRecord (s t : Display) :
    Record.carry? frameRecord s t = some { t with frame := s.frame } := by
  simp [frameRecord, Item.carry?, Datum.shape, Except.toOption, Frame.length_toList,
    Frame.ofArray_toList]

end Display

end Handheld
