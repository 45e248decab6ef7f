import Handheld.Proofs.Closure
import Handheld.Proofs.FrameCounter

/-!
# Reaching the wanted line

A program writes the number of a line that it wants to hear of.  The display compares it with the
current line whenever a mode ends, and asks for the status interrupt if they match and did not match
before.  What it remembers of the last comparison is only whether there was a match; so a program
that changes the wanted line in the meantime from the current line to the next one is not told when
the next one is reached.

`Display.Compared` keeps the line that was wanted at the last comparison next to the display,
through all writes and all stretches of time.  The flag of the display then stands for a comparison
of this line with the current one (`Compared.coincidence_iff`), and it follows which interrupts are
missed: `Display.stat_of_reaching_wanted` says when reaching the wanted line asks for the
interrupt.
-/

namespace Handheld

/-- The rest of a stretch of time is shorter when a mode has ended. -/
lemma Mode.toNat_sub_duration_lt {m : Mode} {dots : UInt32} (h : m.duration ≤ dots) :
    (dots - m.duration).toNat < dots.toNat := by
  have hpos : 0 < m.duration.toNat := UInt32.lt_iff_toNat_lt.mp m.duration_pos
  have hle := UInt32.le_iff_toNat_le.mp h
  rw [UInt32.toNat_sub_of_le _ _ h]
  omega

namespace Display

variable {d : Display} {p : Progress} {wanted? : Option UInt8} {dots cycles : UInt32}
  {video : Vector UInt8 0x2000} {oam : Vector UInt8 0xA0}

/-! ### Ends of modes -/

/-- How many modes end on a way through the modes. -/
def Progress.modeEnds (video : Vector UInt8 0x2000) (oam : Vector UInt8 0xA0) (p : Progress)
    (dots : UInt32) : Nat :=
  if p.display.mode.duration ≤ dots then
    modeEnds video oam (p.endMode video oam).compareLine (dots - p.display.mode.duration) + 1
  else 0
termination_by dots.toNat
decreasing_by
  next h => exact Mode.toNat_sub_duration_lt h

/-- How many modes end while cycles pass. -/
def modeEnds (d : Display) (cycles : UInt32) (video : Vector UInt8 0x2000)
    (oam : Vector UInt8 0xA0) : Nat :=
  if d.enabled then Progress.modeEnds video oam { display := d } (d.dots + cycles) else 0

lemma Progress.modeEnds_of_le (h : p.display.mode.duration ≤ dots) :
    Progress.modeEnds video oam p dots = Progress.modeEnds video oam
      (p.endMode video oam).compareLine (dots - p.display.mode.duration) + 1 := by
  rw [Progress.modeEnds, if_pos h]

lemma Progress.modeEnds_of_lt (h : dots < p.display.mode.duration) :
    Progress.modeEnds video oam p dots = 0 := by
  rw [Progress.modeEnds, if_neg (UInt32.not_le.mpr h)]

/-- Without the end of a mode, only the dots change. -/
lemma run_of_modeEnds_eq_zero (h : Progress.modeEnds video oam p dots = 0) :
    Progress.run video oam p dots = { p with display := { p.display with dots := dots } } := by
  by_cases hover : p.display.mode.duration ≤ dots
  · rw [Progress.modeEnds_of_le hover] at h
    cases h
  · exact run_of_lt video oam (UInt32.not_le.mp hover)

/-- The first mode ends if any does. -/
lemma run_of_modeEnds_eq_succ {n : Nat} (h : Progress.modeEnds video oam p dots = n + 1) :
    Progress.run video oam p dots = Progress.run video oam (p.endMode video oam).compareLine
      (dots - p.display.mode.duration) ∧
    Progress.modeEnds video oam (p.endMode video oam).compareLine
      (dots - p.display.mode.duration) = n := by
  by_cases hover : p.display.mode.duration ≤ dots
  · rw [Progress.modeEnds_of_le hover] at h
    exact ⟨run_of_le video oam hover, Nat.succ.inj h⟩
  · rw [Progress.modeEnds_of_lt (UInt32.not_le.mp hover)] at h
    cases h

/-! ### Comparing -/

/-- Drawing a line changes the picture, and which line of the window comes next. -/
lemma exists_draw_eq (d : Display) (video : Vector UInt8 0x2000) (oam : Vector UInt8 0xA0) :
    ∃ frame windowLine,
      d.draw video oam = { d with frame := frame, windowLine := windowLine } := by
  unfold draw
  split
  · exact ⟨_, _, rfl⟩
  · exact ⟨_, _, rfl⟩

/-- The end of a mode leaves alone what a comparison depends on, except for the line. -/
lemma comparison_endMode (p : Progress) (video : Vector UInt8 0x2000)
    (oam : Vector UInt8 0xA0) :
    (p.endMode video oam).display.lineCompare = p.display.lineCompare ∧
    (p.endMode video oam).display.select = p.display.select ∧
    (p.endMode video oam).display.coincidence = p.display.coincidence := by
  obtain ⟨frame, windowLine, hdraw⟩ := exists_draw_eq p.display video oam
  unfold Progress.endMode
  simp only [hdraw]
  split
  · exact ⟨rfl, rfl, rfl⟩
  · exact ⟨rfl, rfl, rfl⟩
  · exact ⟨rfl, rfl, rfl⟩
  · split
    · exact ⟨rfl, rfl, rfl⟩
    · exact ⟨rfl, rfl, rfl⟩

/-- The end of a mode asks for the status interrupt if the mode that is entered is selected. -/
lemma stat_endMode (p : Progress) (video : Vector UInt8 0x2000) (oam : Vector UInt8 0xA0) :
    (p.endMode video oam).requests.stat = true ↔ p.requests.stat = true ∨
      (p.endMode video oam).display.mode ≠ p.display.mode ∧
        p.display.selects (p.endMode video oam).display.mode = true := by
  obtain ⟨frame, windowLine, hdraw⟩ := exists_draw_eq p.display video oam
  unfold Progress.endMode
  simp only [hdraw]
  split
  · rename_i hmode
    simp [Progress.enter, Sources.union, hmode, selects]
  · rename_i hmode
    simp [Progress.enter, Sources.union, hmode, selects]
  · rename_i hmode
    by_cases hvisible : p.display.line + 1 < visibleLines
    · simp [Progress.enter, Sources.union, hmode, selects, hvisible]
    · simp [Progress.enter, Sources.union, hmode, selects, hvisible]
  · rename_i hmode
    split
    · simp [Progress.enter, Sources.union, hmode, selects]
    · simp [hmode]

/-- At the end of a stretch of time, the flag stands for the last comparison, if there was one. -/
lemma comparison_run (p : Progress) (video : Vector UInt8 0x2000) (oam : Vector UInt8 0xA0)
    (dots : UInt32) :
    (Progress.run video oam p dots).display.lineCompare = p.display.lineCompare ∧
    (Progress.modeEnds video oam p dots ≠ 0 →
      (Progress.run video oam p dots).display.coincidence =
        ((Progress.run video oam p dots).display.line == p.display.lineCompare)) := by
  fun_induction Progress.run video oam p dots with
  | case1 p dots hover ih =>
    obtain ⟨hwanted, -, -⟩ := comparison_endMode p video oam
    obtain ⟨hwanted', hflag⟩ := ih
    have hcompared : (p.endMode video oam).compareLine.display.lineCompare =
        p.display.lineCompare := hwanted
    rw [hcompared] at hwanted' hflag
    refine ⟨hwanted', fun _ => ?_⟩
    by_cases hmore : Progress.modeEnds video oam (p.endMode video oam).compareLine
        (dots - p.display.mode.duration) = 0
    · rw [run_of_modeEnds_eq_zero hmore, ← hwanted]
      rfl
    · exact hflag hmore
  | case2 p dots hover =>
    refine ⟨rfl, fun hsome => ?_⟩
    exact absurd (Progress.modeEnds_of_lt (UInt32.not_le.mp hover)) hsome

/-! ### Displays with a history -/

/-- The line that was wanted when the current line was last compared, after a write.  Switching the
display on compares the first line; switching it off forgets the match. -/
def wantedAfterWrite (wanted? : Option UInt8) (d : Display) (r v : UInt8) : Option UInt8 :=
  if r.toNat = 0x40 then
    match d.enabled, Byte.bit v 7 with
    | true, false => none
    | false, true => some d.lineCompare
    | _, _ => wanted?
  else wanted?

/-- The line that was wanted when the current line was last compared, after some time. -/
def wantedAfterAdvance (wanted? : Option UInt8) (d : Display) (cycles : UInt32)
    (video : Vector UInt8 0x2000) (oam : Vector UInt8 0xA0) : Option UInt8 :=
  if d.modeEnds cycles video oam = 0 then wanted? else some d.lineCompare

/-- The displays that writes and time lead to, with the line that was wanted at the last
comparison, if there was one. -/
inductive Compared : Option UInt8 → Display → Prop
  | cold : Compared none cold
  | postBoot : Compared none postBoot
  | write {wanted? : Option UInt8} {d : Display} (r v : UInt8) :
      Compared wanted? d → Compared (wantedAfterWrite wanted? d r v) (d.write r v)
  | advance {wanted? : Option UInt8} {d : Display} (cycles : UInt32)
      (video : Vector UInt8 0x2000) (oam : Vector UInt8 0xA0) :
      Compared wanted? d →
        Compared (wantedAfterAdvance wanted? d cycles video oam)
          (d.advance cycles video oam).display

/-- The displays with such a history are the displays in use. -/
lemma reached_iff_exists_compared : d.Reached ↔ ∃ wanted?, d.Compared wanted? := by
  constructor
  · intro hd
    induction hd with
    | cold => exact ⟨_, .cold⟩
    | postBoot => exact ⟨_, .postBoot⟩
    | write r v _ ih => exact ih.imp' _ fun _ h => h.write r v
    | advance cycles video oam _ ih => exact ih.imp' _ fun _ h => h.advance cycles video oam
  · rintro ⟨wanted?, hd⟩
    induction hd with
    | cold => exact .cold
    | postBoot => exact .postBoot
    | write r v _ ih => exact ih.write r v
    | advance cycles video oam _ ih => exact ih.advance cycles video oam

/-- Only the control register has to do with the comparison of the current line. -/
lemma coincidence_write_of_ne {r : UInt8} (hr : r.toNat ≠ 0x40) (v : UInt8) :
    (d.write r v).coincidence = d.coincidence ∧ (d.write r v).line = d.line := by
  unfold Display.write
  split
  · contradiction
  all_goals exact ⟨rfl, rfl⟩

namespace Compared

/-- A write keeps what the flag stands for. -/
lemma coincidence_iff_write (h : d.coincidence = true ↔ wanted? = some d.line) (r v : UInt8) :
    (d.write r v).coincidence = true ↔
      wantedAfterWrite wanted? d r v = some (d.write r v).line := by
  by_cases hr : r.toNat = 0x40
  · have hcontrol : d.write r v = d.writeControl v := by simp only [Display.write, hr]
    have hnew : ({ d with control := v } : Display).enabled = Byte.bit v 7 := rfl
    rw [hcontrol, wantedAfterWrite, if_pos hr]
    cases hold : d.enabled <;> cases hv : Byte.bit v 7
    all_goals simp only [Display.writeControl, hold, hnew, hv]
    case false.true => simp
    case true.false => simp
    all_goals exact h
  · obtain ⟨hflag, hline⟩ := coincidence_write_of_ne (d := d) hr v
    rw [hflag, hline, wantedAfterWrite, if_neg hr]
    exact h

/-- Time keeps what the flag stands for. -/
lemma coincidence_iff_advance (h : d.coincidence = true ↔ wanted? = some d.line)
    (cycles : UInt32) (video : Vector UInt8 0x2000) (oam : Vector UInt8 0xA0) :
    (d.advance cycles video oam).display.coincidence = true ↔
      wantedAfterAdvance wanted? d cycles video oam =
        some (d.advance cycles video oam).display.line := by
  unfold wantedAfterAdvance modeEnds Display.advance
  by_cases hon : d.enabled = true
  · simp only [if_pos hon]
    by_cases hends : Progress.modeEnds video oam { display := d } (d.dots + cycles) = 0
    · rw [if_pos hends, run_of_modeEnds_eq_zero hends]
      exact h
    · obtain ⟨-, hflag⟩ := comparison_run { display := d } video oam (d.dots + cycles)
      rw [if_neg hends, hflag hends, beq_iff_eq, Option.some.injEq]
      exact eq_comm
  · simp only [if_neg hon]
    exact h

/-- The flag stands for the comparison of the current line with the line that was wanted then. -/
theorem coincidence_iff (hd : d.Compared wanted?) :
    d.coincidence = true ↔ wanted? = some d.line := by
  induction hd with
  | cold => exact iff_of_false (by decide) nofun
  | postBoot => exact iff_of_false (by decide) nofun
  | write r v _ ih => exact coincidence_iff_write ih r v
  | advance cycles video oam _ ih => exact coincidence_iff_advance ih cycles video oam

end Compared

/-! ### The interrupt -/

/-- If one mode ends, and the next line is the wanted one, the interrupt is asked for unless the
flag is set already; the mode that is entered may ask for it as well. -/
lemma stat_advance (hends : d.modeEnds cycles video oam = 1)
    (hwanted : (d.advance cycles video oam).display.line = d.lineCompare)
    (hselects : d.selectsCoincidence = true) :
    (d.advance cycles video oam).requests.stat = true ↔ d.coincidence = false ∨
      (d.advance cycles video oam).display.mode ≠ d.mode ∧
        d.selects (d.advance cycles video oam).display.mode = true := by
  by_cases hon : d.enabled = true
  · rw [modeEnds, if_pos hon] at hends
    rw [Display.advance, if_pos hon] at hwanted ⊢
    obtain ⟨hrun, hnone⟩ := run_of_modeEnds_eq_succ hends
    rw [hrun, run_of_modeEnds_eq_zero hnone] at hwanted ⊢
    obtain ⟨hcompare, hselect, hflag⟩ := comparison_endMode { display := d } video oam
    have hstat := stat_endMode { display := d } video oam
    have hhit : (Progress.endMode { display := d } video oam).display.line =
        (Progress.endMode { display := d } video oam).display.lineCompare :=
      hwanted.trans hcompare.symm
    have hselects' :
        (Progress.endMode { display := d } video oam).display.selectsCoincidence = true := by
      rw [selectsCoincidence, hselect]
      exact hselects
    simp only [Progress.compareLine, Sources.union, hhit, hselects', hflag, Bool.or_eq_true,
      hstat, BEq.rfl, Bool.true_and, Bool.and_true, Bool.not_eq_true', Bool.false_eq_true,
      false_or]
    exact or_comm
  · rw [modeEnds, if_neg hon] at hends
    cases hends

/-- If one mode ends, and leads to another line, which is the wanted one and is selected, then the
interrupt is asked for, unless the line before was the wanted one when it was last compared; in this
case only entering a selected mode asks for it.  So nothing is missed if the wanted line is still
the one that was wanted then. -/
theorem stat_of_reaching_wanted (hd : d.Compared wanted?)
    (hends : d.modeEnds cycles video oam = 1)
    (hline : (d.advance cycles video oam).display.line ≠ d.line)
    (hwanted : (d.advance cycles video oam).display.line = d.lineCompare)
    (hselects : d.selectsCoincidence = true) :
    ((d.advance cycles video oam).requests.stat = true ↔ wanted? ≠ some d.line ∨
      (d.advance cycles video oam).display.mode ≠ d.mode ∧
        d.selects (d.advance cycles video oam).display.mode = true) ∧
    (wanted? = none ∨ wanted? = some d.lineCompare →
      (d.advance cycles video oam).requests.stat = true) := by
  have hstat := stat_advance hends hwanted hselects
  rw [← Bool.not_eq_true, hd.coincidence_iff] at hstat
  refine ⟨hstat, fun hsame => hstat.mpr (.inl ?_)⟩
  rcases hsame with rfl | rfl
  · exact nofun
  · intro h
    exact hline (hwanted.trans (Option.some.inj h))

/-! ### A line that is missed -/

/-- Looking for sprites is followed by drawing. -/
lemma next_search (video : Vector UInt8 0x2000) (oam : Vector UInt8 0xA0)
    (hmode : p.display.mode = .search) :
    (p.endMode video oam).compareLine.display = { p.display with
      mode := .transfer
      coincidence := p.display.line == p.display.lineCompare } := by
  simp [Progress.endMode, Progress.enter, Progress.compareLine, hmode]

/-- Drawing is followed by the end of the line. -/
lemma next_transfer (video : Vector UInt8 0x2000) (oam : Vector UInt8 0xA0)
    (hmode : p.display.mode = .transfer) : ∃ frame windowLine,
    (p.endMode video oam).compareLine.display = { p.display with
      mode := .hblank
      coincidence := p.display.line == p.display.lineCompare
      frame := frame
      windowLine := windowLine } := by
  obtain ⟨frame, windowLine, hdraw⟩ := exists_draw_eq p.display video oam
  refine ⟨frame, windowLine, ?_⟩
  simp [Progress.endMode, Progress.enter, Progress.compareLine, hmode, hdraw]

/-- The end of a line of the screen is followed by the next line. -/
lemma next_hblank (video : Vector UInt8 0x2000) (oam : Vector UInt8 0xA0)
    (hmode : p.display.mode = .hblank) (hvisible : p.display.line + 1 < visibleLines) :
    (p.endMode video oam).compareLine.display = { p.display with
      mode := .search
      line := p.display.line + 1
      coincidence := p.display.line + 1 == p.display.lineCompare } := by
  simp [Progress.endMode, Progress.enter, Progress.compareLine, hmode, hvisible]

/-- From the start of a line to its last mode. -/
lemma advance_search (video : Vector UInt8 0x2000) (oam : Vector UInt8 0xA0)
    (hon : d.enabled = true) (hmode : d.mode = .search) (hdots : d.dots = 0) :
    d.modeEnds 252 video oam = 2 ∧ ∃ frame windowLine,
      (d.advance 252 video oam).display = { d with
        mode := .hblank
        dots := 0
        coincidence := d.line == d.lineCompare
        frame := frame
        windowLine := windowLine } := by
  have hfirst : ({ display := d } : Progress).display.mode.duration = 80 := by
    rw [hmode]
    rfl
  have hsearch := next_search (p := { display := d }) video oam hmode
  generalize hp : (Progress.endMode { display := d } video oam).compareLine = p at hsearch
  have hsecond : p.display.mode.duration = 172 := by
    rw [hsearch]
    rfl
  obtain ⟨frame, windowLine, htransfer⟩ :=
    next_transfer (p := p) video oam (by rw [hsearch])
  generalize hq : (p.endMode video oam).compareLine = q at htransfer
  have hthird : q.display.mode.duration = 204 := by
    rw [htransfer]
    rfl
  have hfits : (0 : UInt32) + 252 - 80 - 172 < q.display.mode.duration := by
    rw [hthird]
    decide
  rw [modeEnds, if_pos hon, Display.advance, if_pos hon, hdots]
  rw [Progress.modeEnds_of_le (by rw [hfirst]; decide), run_of_le _ _ (by rw [hfirst]; decide), hp,
    hfirst, Progress.modeEnds_of_le (by rw [hsecond]; decide),
    run_of_le _ _ (by rw [hsecond]; decide), hq, hsecond, Progress.modeEnds_of_lt hfits,
    run_of_lt _ _ hfits, htransfer, hsearch]
  exact ⟨rfl, frame, windowLine, rfl⟩

/-- From the last mode of a line to the next line. -/
lemma advance_hblank (video : Vector UInt8 0x2000) (oam : Vector UInt8 0xA0)
    (hon : d.enabled = true) (hmode : d.mode = .hblank) (hdots : d.dots = 0)
    (hvisible : d.line + 1 < visibleLines) :
    d.modeEnds 204 video oam = 1 ∧
      (d.advance 204 video oam).display.line = d.line + 1 ∧
      (d.advance 204 video oam).display.mode = .search := by
  have hfirst : ({ display := d } : Progress).display.mode.duration = 204 := by
    rw [hmode]
    rfl
  have hnext := next_hblank (p := { display := d }) video oam hmode hvisible
  generalize hp : (Progress.endMode { display := d } video oam).compareLine = p at hnext
  have hsecond : p.display.mode.duration = 80 := by
    rw [hnext]
    rfl
  have hfits : (0 : UInt32) + 204 - 204 < p.display.mode.duration := by
    rw [hsecond]
    decide
  rw [modeEnds, if_pos hon, Display.advance, if_pos hon, hdots]
  rw [Progress.modeEnds_of_le (by rw [hfirst]; decide), run_of_le _ _ (by rw [hfirst]; decide), hp,
    hfirst, Progress.modeEnds_of_lt hfits, run_of_lt _ _ hfits, hnext]
  exact ⟨rfl, rfl, rfl⟩

/-- A display that selects the interrupt of a wanted line, at the end of its first line. -/
def selecting (wanted : UInt8) : Display :=
  (((postBoot.write 0x45 wanted).write 0x41 0x40).advance 252 (.replicate 0x2000 0)
    (.replicate 0xA0 0)).display

/-- The first line was compared twice. -/
lemma compared_selecting (wanted : UInt8) : (selecting wanted).Compared (some wanted) := by
  have hon : ((postBoot.write 0x45 wanted).write 0x41 0x40).enabled = true := by
    change postBoot.enabled = true
    decide
  obtain ⟨hends, -⟩ := advance_search (.replicate 0x2000 0)
    (.replicate 0xA0 0) hon rfl rfl
  have h := ((Compared.postBoot.write 0x45 wanted).write 0x41 0x40).advance 252
    (.replicate 0x2000 0) (.replicate 0xA0 0)
  rw [wantedAfterAdvance, hends, if_neg (by decide)] at h
  exact h

lemma selecting_state (wanted : UInt8) :
    (selecting wanted).enabled = true ∧ (selecting wanted).mode = .hblank ∧
    (selecting wanted).dots = 0 ∧ (selecting wanted).line = 0 ∧
    (selecting wanted).lineCompare = wanted ∧ (selecting wanted).select = 0x40 ∧
    (selecting wanted).coincidence = (0 == wanted) := by
  have hon : ((postBoot.write 0x45 wanted).write 0x41 0x40).enabled = true := by
    change postBoot.enabled = true
    decide
  obtain ⟨-, frame, windowLine, h⟩ := advance_search (.replicate 0x2000 0)
    (.replicate 0xA0 0) hon rfl rfl
  rw [selecting, h]
  exact ⟨hon, rfl, rfl, rfl, rfl, rfl, rfl⟩

/-- What `stat_of_reaching_wanted` says about a display whose second line was wanted from the
start: the interrupt is asked for. -/
theorem stat_of_reaching_wanted_selecting :
    ((selecting 1).advance 204 (.replicate 0x2000 0) (.replicate 0xA0 0)).requests.stat =
      true := by
  obtain ⟨hon, hmode, hdots, hline, hwanted, hselect, -⟩ := selecting_state 1
  obtain ⟨hends, hnext, -⟩ := advance_hblank (.replicate 0x2000 0) (.replicate 0xA0 0) hon hmode
    hdots (by rw [hline]; decide)
  rw [hline] at hnext
  obtain ⟨-, hstat⟩ := stat_of_reaching_wanted (compared_selecting 1) hends
    (by rw [hnext, hline]; decide) (by rw [hnext, hwanted]; rfl)
    (by rw [selectsCoincidence, hselect]; decide)
  exact hstat (.inr (by rw [hwanted]))

/-- If the second line is wanted only at the end of the first one, which was wanted before, then
reaching it asks for nothing. -/
theorem no_stat_after_late_write :
    let d := (selecting 0).write 0x45 1
    let p := d.advance 204 (.replicate 0x2000 0) (.replicate 0xA0 0)
    d.Reached ∧ d.enabled = true ∧ d.selectsCoincidence = true ∧
      d.modeEnds 204 (.replicate 0x2000 0) (.replicate 0xA0 0) = 1 ∧
      p.display.line ≠ d.line ∧ p.display.line = d.lineCompare ∧
      p.requests.stat = false := by
  intro d p
  have hreached : d.Reached :=
    reached_iff_exists_compared.mpr ⟨_, (compared_selecting 0).write 0x45 1⟩
  obtain ⟨hon, hmode, hdots, hline, -, hselect, hflag⟩ : d.enabled = true ∧ d.mode = .hblank ∧
      d.dots = 0 ∧ d.line = 0 ∧ (selecting 0).lineCompare = 0 ∧ d.select = 0x40 ∧
      d.coincidence = true := selecting_state 0
  obtain ⟨hends, hnext, hsearch⟩ := advance_hblank (.replicate 0x2000 0) (.replicate 0xA0 0) hon
    hmode hdots (by rw [hline]; decide)
  rw [hline] at hnext
  have hselects : d.selectsCoincidence = true := by
    rw [selectsCoincidence, hselect]
    decide
  have hquiet : d.selects .search = false := by
    rw [selects, hselect]
    decide
  have hstat := stat_advance hends hnext hselects
  rw [hsearch, hflag, hquiet] at hstat
  have hnew : p.display.line ≠ d.line := by
    rw [hline]
    exact fun h => absurd (hnext.symm.trans h) (by decide)
  exact ⟨hreached, hon, hselects, hends, hnew, hnext, by simpa using hstat⟩

end Display

end Handheld
