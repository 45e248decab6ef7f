import Handheld.Clock
import Handheld.Proofs.Saved.Display

/-!
# The display as a counter

A display that is on counts the dots of a frame: `Display.position` is how many of them are over.
`Progress.run` goes through the modes one by one, but all that it does to the time is to add dots to
this counter, which starts again at zero when it reaches `frameCycles`.

The places that a display passes are those of a counter only if the mode and the line agree.
`Display.Framed` says that they do; each end of a mode keeps it and moves the counter by the
duration of the mode (`Framed.endMode`), so that a run moves it by all the dots (`Framed.run`).
`Display.Timed` adds what is true of a display that is off, and holds of every display that writes
and time lead to (`Reached.timed`).

The main statement is `Display.frame_counter`.
-/

namespace Handheld

/-- The dots of a line that are over when a mode begins. -/
def Mode.offset : Mode → Nat
  | .transfer => 80
  | .hblank => 252
  | _ => 0

namespace Display

variable {d : Display} {a b c : Nat}

/-- The dots of a frame that are over when `vblank` begins. -/
def vblankStart : Nat := lineCycles * visibleLines.toNat

/-- The dots of the frame that were over when the current mode began. -/
def start (d : Display) : Nat := lineCycles * d.line.toNat + d.mode.offset

/-- The dots of the frame that are over. -/
def position (d : Display) : Nat := d.start + d.dots.toNat

lemma frameCycles_eq : frameCycles = 70224 := rfl

lemma vblankStart_eq : vblankStart = 65664 := rfl

lemma vblankStart_lt : vblankStart < frameCycles := by decide

/-! ### Passing a place of the frame -/

/-- A counter that goes on from `a` to `b`, over as many frames as it takes, passes a place of the
frame with a property. -/
def Passes (P : Nat → Prop) (a b : Nat) : Prop := ∃ n, a < n ∧ n ≤ b ∧ P (n % frameCycles)

/-- What is passed in two parts. -/
lemma passes_split (P : Nat → Prop) (hab : a ≤ b) (hbc : b ≤ c) :
    Passes P a c ↔ Passes P a b ∨ Passes P b c := by
  constructor
  · rintro ⟨n, han, hnc, hn⟩
    by_cases hnb : n ≤ b
    · exact .inl ⟨n, han, hnb, hn⟩
    · exact .inr ⟨n, by omega, hnc, hn⟩
  · rintro (⟨n, han, hnb, hn⟩ | ⟨n, hbn, hnc, hn⟩)
    · exact ⟨n, han, Nat.le_trans hnb hbc, hn⟩
    · exact ⟨n, by omega, hnc, hn⟩

/-- Which places are passed does not depend on the frame in which a counter starts. -/
lemma passes_mod (P : Nat → Prop) (a c : Nat) :
    Passes P (a % frameCycles) (a % frameCycles + c) ↔ Passes P a (a + c) := by
  have hdiv := Nat.div_add_mod a frameCycles
  constructor
  · rintro ⟨n, han, hnc, hn⟩
    refine ⟨frameCycles * (a / frameCycles) + n, by omega, by omega, ?_⟩
    rwa [Nat.mul_add_mod]
  · rintro ⟨n, han, hnc, hn⟩
    refine ⟨n - frameCycles * (a / frameCycles), by omega, by omega, ?_⟩
    rwa [Nat.sub_mul_mod (by omega)]

/-- A counter that goes on from `a` to `b`, over as many frames as it takes, passes the beginning of
a vertical blank. -/
def PassesVblank (a b : Nat) : Prop := ∃ n, a < n ∧ n ≤ b ∧ n % frameCycles = vblankStart

/-- Within a frame there is one beginning. -/
lemma passesVblank_iff (hb : b ≤ frameCycles) :
    PassesVblank a b ↔ a < vblankStart ∧ vblankStart ≤ b := by
  unfold PassesVblank
  rw [frameCycles_eq] at hb ⊢
  rw [vblankStart_eq]
  constructor
  · rintro ⟨n, han, hnb, hn⟩
    omega
  · rintro ⟨ha, hle⟩
    exact ⟨65664, ha, hle, rfl⟩

/-- The beginnings that are passed in two parts. -/
lemma passesVblank_split (hab : a ≤ b) (hbc : b ≤ c) :
    PassesVblank a c ↔ PassesVblank a b ∨ PassesVblank b c :=
  passes_split (· = vblankStart) hab hbc

/-- Which beginnings of the vertical blank are passed does not depend on the frame in which a
counter starts. -/
lemma passesVblank_mod (a c : Nat) :
    PassesVblank (a % frameCycles) (a % frameCycles + c) ↔ PassesVblank a (a + c) :=
  passes_mod (· = vblankStart) a c

/-! ### Modes and lines that agree -/

/-- A display that is on, at a place of a frame: the lines below the screen are those of `vblank`,
and its interrupt was asked for when it began. -/
structure Framed (d : Display) : Prop where
  line : d.line ≤ lastLine
  visible : d.mode ≠ .vblank → d.line < visibleLines
  below : d.mode = .vblank → visibleLines ≤ d.line
  raised : d.vblankRaised = true ↔ visibleLines ≤ d.line

/-- A display that is off rests at the first line. -/
structure Resting (d : Display) : Prop where
  mode : d.mode = .hblank
  line : d.line = 0
  dots : d.dots = 0

/-- At the start of a frame the mode and the line agree. -/
lemma framed_first (hmode : d.mode ≠ .vblank) (hline : d.line = 0)
    (hraised : d.vblankRaised = false) : d.Framed := by
  refine ⟨?_, fun _ => ?_, fun h => absurd h hmode, ?_⟩
  · rw [hline]
    exact UInt8.zero_le
  · rw [hline]
    decide
  · rw [hline, hraised]
    decide

namespace Framed

/-- The lines as numbers. -/
lemma bounds (hd : d.Framed) : d.line.toNat ≤ 153 ∧
    (d.mode = .vblank → 144 ≤ d.line.toNat) ∧ (d.mode ≠ .vblank → d.line.toNat < 144) :=
  ⟨UInt8.le_iff_toNat_le.mp hd.line, fun h => UInt8.le_iff_toNat_le.mp (hd.below h),
    fun h => UInt8.lt_iff_toNat_lt.mp (hd.visible h)⟩

/-- The mode tells whether the line is on the screen. -/
lemma mode_eq_vblank_iff (hd : d.Framed) : d.mode = .vblank ↔ visibleLines ≤ d.line :=
  ⟨hd.below, fun hle => Decidable.byContradiction fun hne =>
    UInt8.not_lt.mpr hle (hd.visible hne)⟩

/-- A display with the same mode, line and vertical blank. -/
lemma congr {t : Display} (hd : d.Framed) (hline : t.line = d.line) (hmode : t.mode = d.mode)
    (hraised : t.vblankRaised = d.vblankRaised) : t.Framed := by
  refine ⟨?_, ?_, ?_, ?_⟩
  · rw [hline]
    exact hd.line
  · rw [hline, hmode]
    exact hd.visible
  · rw [hline, hmode]
    exact hd.below
  · rw [hline, hraised]
    exact hd.raised

/-- A mode is over within the part of the frame, before `vblank` or in it, in which it began. -/
lemma start_add_duration (hd : d.Framed) :
    d.start + d.mode.duration.toNat ≤ vblankStart ∨
      vblankStart ≤ d.start ∧ d.start + d.mode.duration.toNat ≤ frameCycles := by
  obtain ⟨hle, hbelow, hvisible⟩ := hd.bounds
  rw [vblankStart_eq, frameCycles_eq]
  unfold start lineCycles
  cases hmode : d.mode with
  | vblank =>
    have := hbelow hmode
    simp only [Mode.offset, Mode.duration, UInt32.reduceToNat]
    omega
  | hblank | search | transfer =>
    have := hvisible (by simp [hmode])
    simp only [Mode.offset, Mode.duration, UInt32.reduceToNat]
    omega

/-- The beginning of `vblank` is not passed while a mode lasts. -/
lemma not_passesVblank (hd : d.Framed) (hb : b < d.start + d.mode.duration.toNat) :
    ¬ PassesVblank d.start b := by
  have hfirst := vblankStart_lt
  rcases hd.start_add_duration with hle | ⟨hle, hlast⟩
  · rw [passesVblank_iff (by omega)]
    omega
  · rw [passesVblank_iff (by omega)]
    omega

end Framed

/-! ### Time -/

/-- What a run has to tell after its display has gone from the place `a` on to the place `b`. -/
structure Elapsed (a b : Nat) (p q : Progress) : Prop where
  frameDone : q.frameDone = true ↔ p.frameDone = true ∨ frameCycles ≤ b
  vblank : q.requests.vblank = true ↔ p.requests.vblank = true ∨ PassesVblank a b

/-- Nothing happens before the end of the frame, if no vertical blank begins. -/
lemma Elapsed.quiet {p q : Progress} (hb : b < frameCycles) (hpass : ¬ PassesVblank a b)
    (hdone : q.frameDone = p.frameDone) (hreq : q.requests.vblank = p.requests.vblank) :
    Elapsed a b p q := by
  constructor
  · simp [hdone, Nat.not_le.mpr hb]
  · simp [hreq, hpass]

/-- Comparing lines asks for another interrupt only. -/
lemma Elapsed.compareLine {p q : Progress} (h : Elapsed a b p q) :
    Elapsed a b p q.compareLine := by
  constructor
  · exact h.frameDone
  · rw [← h.vblank]
    simp [Progress.compareLine, Sources.union]

/-- Two stretches of time, the first one within a frame. -/
lemma Elapsed.trans {p q r : Progress} (h₁ : Elapsed a b p q) (hab : a ≤ b)
    (hb : b ≤ frameCycles) (h₂ : Elapsed (b % frameCycles) (b % frameCycles + c) q r) :
    Elapsed a (b + c) p r := by
  constructor
  · have hmod : frameCycles ≤ b + c ↔ frameCycles ≤ b ∨ frameCycles ≤ b % frameCycles + c := by
      rw [frameCycles_eq] at hb ⊢
      omega
    rw [h₂.frameDone, h₁.frameDone, hmod, or_assoc]
  · rw [h₂.vblank, h₁.vblank, passesVblank_mod, or_assoc,
      passesVblank_split hab (Nat.le_add_right b c)]

section

variable {p : Progress} {m : Mode}

/-- Entering a mode of a line on the screen. -/
lemma enter_of_visible (hm : m ≠ .vblank) (hline : p.display.line < visibleLines)
    (hraised : p.display.vblankRaised = false) :
    (p.enter m).display.Framed ∧
    (p.enter m).display.start = lineCycles * p.display.line.toNat + m.offset ∧
    (p.enter m).requests.vblank = p.requests.vblank := by
  have hcode : (m == .vblank) = false := beq_eq_false_iff_ne.mpr hm
  have hle : p.display.line ≤ lastLine :=
    UInt8.le_of_lt (UInt8.lt_trans hline (by decide : visibleLines < lastLine))
  refine ⟨⟨hle, fun _ => hline, fun h => absurd h hm, ?_⟩, rfl, ?_⟩
  · have hraised' : (p.enter m).display.vblankRaised = false := by
      simp [Progress.enter, hraised, hcode]
    rw [hraised']
    exact iff_of_false Bool.false_ne_true (UInt8.not_le.mpr hline)
  · simp [Progress.enter, Sources.union, hcode]

/-- Entering the vertical blank at its first line asks for its interrupt. -/
lemma enter_vblank (hline : p.display.line = visibleLines)
    (hraised : p.display.vblankRaised = false) :
    (p.enter .vblank).display.Framed ∧
    (p.enter .vblank).display.start = vblankStart ∧
    (p.enter .vblank).requests.vblank = true := by
  refine ⟨⟨?_, fun h => absurd rfl h, fun _ => ?_, ?_⟩, ?_, ?_⟩
  · change p.display.line ≤ lastLine
    rw [hline]
    decide
  · exact UInt8.le_of_eq hline.symm
  · have hraised' : (p.enter .vblank).display.vblankRaised = true := by simp [Progress.enter]
    exact iff_of_true hraised' (UInt8.le_of_eq hline.symm)
  · change lineCycles * p.display.line.toNat + 0 = vblankStart
    rw [hline]
    rfl
  · simp [Progress.enter, Sources.union, hraised]

end

/-- Drawing a line asks for no interrupt and switches nothing. -/
lemma draw_state (d : Display) (video : Vector UInt8 0x2000) (oam : Vector UInt8 0xA0) :
    (d.draw video oam).vblankRaised = d.vblankRaised ∧
      (d.draw video oam).control = d.control := by
  unfold draw
  split
  · exact ⟨rfl, rfl⟩
  · exact ⟨rfl, rfl⟩

/-- The end of a mode switches nothing. -/
lemma control_endMode (p : Progress) (video : Vector UInt8 0x2000) (oam : Vector UInt8 0xA0) :
    (p.endMode video oam).display.control = p.display.control := by
  unfold Progress.endMode
  simp only
  split
  · rfl
  · exact (draw_state p.display video oam).2
  · rfl
  · split
    · rfl
    · rfl

/-- Time switches nothing. -/
lemma control_run (p : Progress) (video : Vector UInt8 0x2000) (oam : Vector UInt8 0xA0)
    (dots : UInt32) : (Progress.run video oam p dots).display.control = p.display.control := by
  fun_induction Progress.run video oam p dots with
  | case1 p dots hover ih => exact ih.trans (control_endMode p video oam)
  | case2 p dots hover => rfl

/-- What the end of a mode, `b` dots after the start of the frame, leads to. -/
inductive ModeEnd (b : Nat) (p q : Progress) : Prop
  /-- The next mode of the line, or the next line. -/
  | within (start : q.display.start = b) (hvblank : b ≠ vblankStart) (hframe : b ≠ frameCycles)
      (hdone : q.frameDone = p.frameDone) (hreq : q.requests.vblank = p.requests.vblank)
  /-- The vertical blank. -/
  | below (start : q.display.start = b) (hvblank : b = vblankStart)
      (hdone : q.frameDone = p.frameDone) (hreq : q.requests.vblank = true)
  /-- The next frame. -/
  | around (start : q.display.start = 0) (hframe : b = frameCycles)
      (hdone : q.frameDone = true) (hreq : q.requests.vblank = p.requests.vblank)

namespace Framed

variable {p : Progress}

/-- On the screen the interrupt of the vertical blank was not asked for yet. -/
lemma raised_eq_false (hd : d.Framed) (hmode : d.mode ≠ .vblank) : d.vblankRaised = false := by
  have hline := UInt8.not_le.mpr (hd.visible hmode)
  exact Bool.eq_false_iff.mpr fun h => hline (hd.raised.mp h)

/-- The modes of a line on the screen follow each other. -/
lemma enter_next {q : Progress} {m : Mode} (hp : p.display.Framed)
    (hmode : p.display.mode ≠ .vblank) (hm : m ≠ .vblank)
    (hline : q.display.line = p.display.line)
    (hraised : q.display.vblankRaised = p.display.vblankRaised)
    (hdone : q.frameDone = p.frameDone) (hreq : q.requests = p.requests)
    (hover : p.display.mode.offset + p.display.mode.duration.toNat = m.offset) :
    (q.enter m).display.Framed ∧
      ModeEnd (p.display.start + p.display.mode.duration.toNat) p (q.enter m) := by
  obtain ⟨hframed, hstart, hreq'⟩ := enter_of_visible (p := q) hm
    (by rw [hline]; exact hp.visible hmode) (by rw [hraised]; exact hp.raised_eq_false hmode)
  have hstart' : (q.enter m).display.start = p.display.start + p.display.mode.duration.toNat := by
    rw [hstart, hline, start, Nat.add_assoc, hover]
  have hlt : p.display.line.toNat < 144 := hp.bounds.2.2 hmode
  have hoffset : m.offset < 456 := by cases m <;> decide
  rw [hline, show lineCycles = 456 from rfl] at hstart
  refine ⟨hframed, .within hstart' ?_ ?_ hdone (hreq'.trans (congrArg _ hreq))⟩
  · rw [← hstart', vblankStart_eq]
    omega
  · rw [← hstart', frameCycles_eq]
    omega

/-- The line after a line of a frame. -/
lemma toNat_succ (hd : d.Framed) : (d.line + 1).toNat = d.line.toNat + 1 :=
  Placed.toNat_succ (UInt8.lt_of_le_of_lt hd.line (by decide : lastLine < 255))

/-- The next line begins at the end of the last mode of a line. -/
lemma start_lineEnd (hd : d.Framed) (hend : d.mode.offset + d.mode.duration.toNat = lineCycles) :
    d.start + d.mode.duration.toNat = lineCycles * (d.line + 1).toNat := by
  rw [start, Nat.add_assoc, hend, hd.toNat_succ, Nat.mul_succ]

/-- The end of a line on the screen. -/
lemma endMode_hblank (hp : p.display.Framed) (hmode : p.display.mode = .hblank)
    (video : Vector UInt8 0x2000) (oam : Vector UInt8 0xA0) :
    (p.endMode video oam).display.Framed ∧
      ModeEnd (p.display.start + p.display.mode.duration.toNat) p (p.endMode video oam) := by
  have hne : p.display.mode ≠ .vblank := by simp [hmode]
  have hlt : p.display.line.toNat < 144 := hp.bounds.2.2 hne
  have hsucc := hp.toNat_succ
  have hover := hp.start_lineEnd (by rw [hmode]; rfl)
  have hend : p.endMode video oam =
      { p with display := { p.display with line := p.display.line + 1 } }.enter
        (if p.display.line + 1 < visibleLines then .search else .vblank) := by
    simp only [Progress.endMode, hmode]
  rw [hover, hend]
  by_cases hvisible : p.display.line + 1 < visibleLines
  · rw [if_pos hvisible]
    obtain ⟨hframed, hstart, hreq⟩ := enter_of_visible (m := .search)
      (p := { p with display := { p.display with line := p.display.line + 1 } })
      (by decide) hvisible (hp.raised_eq_false hne)
    have hnext : (p.display.line + 1).toNat < 144 := UInt8.lt_iff_toNat_lt.mp hvisible
    refine ⟨hframed, .within hstart ?_ ?_ rfl hreq⟩
    · rw [vblankStart_eq, lineCycles]
      omega
    · rw [frameCycles_eq, lineCycles]
      omega
  · rw [if_neg hvisible]
    have hfirst : p.display.line + 1 = visibleLines := by
      have hge : 144 ≤ (p.display.line + 1).toNat :=
        UInt8.le_iff_toNat_le.mp (UInt8.not_lt.mp hvisible)
      apply UInt8.toNat_inj.mp
      change (p.display.line + 1).toNat = 144
      omega
    obtain ⟨hframed, hstart, hreq⟩ := enter_vblank
      (p := { p with display := { p.display with line := p.display.line + 1 } })
      hfirst (hp.raised_eq_false hne)
    have hbegin : lineCycles * (p.display.line + 1).toNat = vblankStart := by
      rw [hfirst]
      rfl
    exact ⟨hframed, .below (hstart.trans hbegin.symm) hbegin rfl hreq⟩

/-- The end of a line below the screen. -/
lemma endMode_vblank (hp : p.display.Framed) (hmode : p.display.mode = .vblank)
    (video : Vector UInt8 0x2000) (oam : Vector UInt8 0xA0) :
    (p.endMode video oam).display.Framed ∧
      ModeEnd (p.display.start + p.display.mode.duration.toNat) p (p.endMode video oam) := by
  obtain ⟨hle, hbelow, -⟩ := hp.bounds
  have hge := hbelow hmode
  have hsucc := hp.toNat_succ
  have hover := hp.start_lineEnd (by rw [hmode]; rfl)
  rw [hover]
  by_cases hlast : p.display.line + 1 > lastLine
  · have hend : p.endMode video oam =
        { p with
          display := { p.display with line := 0, windowLine := 0, vblankRaised := false }
          frameDone := true }.enter .search := by
      simp only [Progress.endMode, hmode, if_pos hlast]
    have hover : 153 < (p.display.line + 1).toNat := UInt8.lt_iff_toNat_lt.mp hlast
    obtain ⟨hframed, hstart, hreq⟩ := enter_of_visible (m := .search)
      (p := { p with
        display := { p.display with line := 0, windowLine := 0, vblankRaised := false }
        frameDone := true })
      (by decide) (by decide : (0 : UInt8) < visibleLines) rfl
    rw [hend]
    refine ⟨hframed, .around hstart ?_ rfl hreq⟩
    rw [frameCycles_eq, lineCycles]
    omega
  · have hend : p.endMode video oam =
        { p with display := { p.display with line := p.display.line + 1 } } := by
      simp only [Progress.endMode, hmode, if_neg hlast]
    have hnext : p.display.line + 1 ≤ lastLine := UInt8.not_lt.mp hlast
    have hnext' : (p.display.line + 1).toNat ≤ 153 := UInt8.le_iff_toNat_le.mp hnext
    have hlines : visibleLines ≤ p.display.line + 1 := by
      apply UInt8.le_iff_toNat_le.mpr
      change 144 ≤ (p.display.line + 1).toNat
      omega
    have hraised : p.display.vblankRaised = true := hp.raised.mpr (hp.below hmode)
    rw [hend]
    refine ⟨⟨hnext, fun h => absurd hmode h, fun _ => hlines, iff_of_true hraised hlines⟩,
      .within ?_ ?_ ?_ rfl rfl⟩
    · simp [start, hmode, Mode.offset]
    · rw [vblankStart_eq, lineCycles]
      omega
    · rw [frameCycles_eq, lineCycles]
      omega

/-- The end of a mode leads to the next place of the counter. -/
theorem endMode (hp : p.display.Framed) (video : Vector UInt8 0x2000) (oam : Vector UInt8 0xA0) :
    (p.endMode video oam).display.Framed ∧
      ModeEnd (p.display.start + p.display.mode.duration.toNat) p (p.endMode video oam) := by
  cases hmode : p.display.mode with
  | search =>
    have hend : p.endMode video oam = p.enter .transfer := by simp only [Progress.endMode, hmode]
    rw [hend, ← hmode]
    exact enter_next hp (by simp [hmode]) (by decide) rfl rfl rfl rfl (by simp [hmode]; rfl)
  | transfer =>
    have hend : p.endMode video oam =
        { p with display := p.display.draw video oam }.enter .hblank := by
      simp only [Progress.endMode, hmode]
    obtain ⟨-, hline⟩ := Placed.draw_place p.display video oam
    rw [hend, ← hmode]
    exact enter_next hp (by simp [hmode]) (by decide) hline
      (draw_state p.display video oam).1 rfl rfl (by simp [hmode]; rfl)
  | hblank =>
    rw [← hmode]
    exact hp.endMode_hblank hmode video oam
  | vblank =>
    rw [← hmode]
    exact hp.endMode_vblank hmode video oam

/-- What the end of a mode has to tell. -/
lemma elapsed_endMode {q : Progress} (hp : p.display.Framed)
    (h : ModeEnd (p.display.start + p.display.mode.duration.toNat) p q) :
    q.display.start = (p.display.start + p.display.mode.duration.toNat) % frameCycles ∧
    Elapsed p.display.start (p.display.start + p.display.mode.duration.toNat) p q := by
  have hpos : 0 < p.display.mode.duration.toNat :=
    UInt32.lt_iff_toNat_lt.mp p.display.mode.duration_pos
  have hparts := hp.start_add_duration
  have hfirst := vblankStart_lt
  generalize hb : p.display.start + p.display.mode.duration.toNat = b at h hparts ⊢
  have hle : b ≤ frameCycles := by omega
  have hpass := passesVblank_iff (a := p.display.start) hle
  cases h with
  | within hstart hvblank hframe hdone hreq =>
    have hlt : b < frameCycles := by omega
    have hnot : ¬ PassesVblank p.display.start b := by
      rw [hpass]
      omega
    exact ⟨hstart.trans (Nat.mod_eq_of_lt hlt).symm, .quiet hlt hnot hdone hreq⟩
  | below hstart hvblank hdone hreq =>
    have hlt : b < frameCycles := by omega
    have hbegin : PassesVblank p.display.start b := hpass.mpr (by omega)
    refine ⟨hstart.trans (Nat.mod_eq_of_lt hlt).symm, ?_, ?_⟩
    · simp [hdone, Nat.not_le.mpr hlt]
    · simp [hreq, hbegin]
  | around hstart hframe hdone hreq =>
    have hnot : ¬ PassesVblank p.display.start b := by
      rw [hpass]
      omega
    refine ⟨?_, ?_, ?_⟩
    · rw [hstart, hframe, Nat.mod_self]
    · simp [hdone, hframe]
    · simp [hreq, hnot]

/-- Going through the modes adds the dots to the counter. -/
theorem run (hp : p.display.Framed) (video : Vector UInt8 0x2000) (oam : Vector UInt8 0xA0)
    (dots : UInt32) :
    (Progress.run video oam p dots).display.Framed ∧
    (Progress.run video oam p dots).display.position =
      (p.display.start + dots.toNat) % frameCycles ∧
    Elapsed p.display.start (p.display.start + dots.toNat) p (Progress.run video oam p dots) := by
  fun_induction Progress.run video oam p dots with
  | case1 p dots hover ih =>
    obtain ⟨hframed, hend⟩ := hp.endMode video oam
    obtain ⟨hstart, helapsed⟩ := hp.elapsed_endMode hend
    obtain ⟨hrun, hposition, hrest⟩ := ih (hframed.congr rfl rfl rfl)
    have hle := hp.start_add_duration
    have hfirst := vblankStart_lt
    have hsplit : p.display.start + dots.toNat = p.display.start + p.display.mode.duration.toNat +
        (dots - p.display.mode.duration).toNat := by
      rw [UInt32.toNat_sub_of_le _ _ hover]
      have := UInt32.le_iff_toNat_le.mp hover
      omega
    have hstart' : (p.endMode video oam).compareLine.display.start =
        (p.display.start + p.display.mode.duration.toNat) % frameCycles := hstart
    rw [hstart'] at hposition hrest
    rw [hsplit]
    refine ⟨hrun, hposition.trans (Nat.mod_add_mod _ _ _), ?_⟩
    exact helapsed.compareLine.trans (Nat.le_add_right _ _) (by omega) hrest
  | case2 p dots hover =>
    have hlt : dots.toNat < p.display.mode.duration.toNat :=
      UInt32.lt_iff_toNat_lt.mp (UInt32.not_le.mp hover)
    have hle := hp.start_add_duration
    have hfirst := vblankStart_lt
    have hframe : p.display.start + dots.toNat < frameCycles := by omega
    refine ⟨hp.congr rfl rfl rfl, (Nat.mod_eq_of_lt hframe).symm, ?_⟩
    exact .quiet hframe (hp.not_passesVblank (by omega)) rfl rfl

end Framed

/-! ### Displays in use -/

/-- A display as writes and time leave it. -/
structure Timed (d : Display) : Prop where
  wellFormed : d.WellFormed
  framed : d.enabled = true → d.Framed
  resting : d.enabled = false → d.Resting

/-- The displays that writes and time lead to. -/
inductive Reached : Display → Prop
  | cold : Reached cold
  | postBoot : Reached postBoot
  | write {d : Display} (r v : UInt8) : Reached d → Reached (d.write r v)
  | advance {d : Display} (cycles : UInt32) (video : Vector UInt8 0x2000)
      (oam : Vector UInt8 0xA0) : Reached d → Reached (d.advance cycles video oam).display

namespace Timed

/-- A display that is in the same state as far as the time is concerned. -/
lemma congr {t : Display} (hd : d.Timed) (ht : t.WellFormed) (henabled : t.enabled = d.enabled)
    (hmode : t.mode = d.mode) (hline : t.line = d.line) (hdots : t.dots = d.dots)
    (hraised : t.vblankRaised = d.vblankRaised) : t.Timed := by
  refine ⟨ht, fun hon => ?_, fun hoff => ?_⟩
  · rw [henabled] at hon
    exact (hd.framed hon).congr hline hmode hraised
  · rw [henabled] at hoff
    have hrest := hd.resting hoff
    exact ⟨hmode.trans hrest.mode, hline.trans hrest.line, hdots.trans hrest.dots⟩

/-- Switching the display off puts it to rest, and switching it on starts a frame. -/
lemma writeControl (hd : d.Timed) (v : UInt8) : (d.writeControl v).Timed := by
  have hwell := hd.wellFormed.writeControl UInt8.le_rfl v
  have hnew : ({ d with control := v } : Display).enabled = Byte.bit v 7 := rfl
  cases hold : d.enabled <;> cases hv : Byte.bit v 7
  case false.true =>
    simp only [Display.writeControl, hold, hnew, hv] at hwell ⊢
    refine ⟨hwell, fun _ => framed_first ?_ rfl rfl, fun hoff => ?_⟩
    · exact Mode.noConfusion
    · cases hv.symm.trans hoff
  case true.false =>
    simp only [Display.writeControl, hold, hnew, hv] at hwell ⊢
    refine ⟨hwell, fun hon => ?_, fun _ => ⟨rfl, rfl, rfl⟩⟩
    cases hv.symm.trans hon
  all_goals
    simp only [Display.writeControl, hold, hnew, hv] at hwell ⊢
    exact hd.congr hwell (hnew.trans (hv.trans hold.symm)) rfl rfl rfl rfl

/-- Only the control register switches the display. -/
lemma write_of_ne {r : UInt8} (hr : r.toNat ≠ 0x40) (v : UInt8) :
    (d.write r v).enabled = d.enabled ∧ (d.write r v).mode = d.mode ∧
    (d.write r v).line = d.line ∧ (d.write r v).dots = d.dots ∧
    (d.write r v).vblankRaised = d.vblankRaised := by
  unfold Display.write
  split
  · contradiction
  all_goals exact ⟨rfl, rfl, rfl, rfl, rfl⟩

/-- A write to a register. -/
lemma write (hd : d.Timed) (r v : UInt8) : (d.write r v).Timed := by
  by_cases hr : r.toNat = 0x40
  · have hcontrol : d.write r v = d.writeControl v := by simp only [Display.write, hr]
    rw [hcontrol]
    exact hd.writeControl v
  · obtain ⟨henabled, hmode, hline, hdots, hraised⟩ := write_of_ne (d := d) hr v
    exact hd.congr (lasting_wellFormed.write hd.wellFormed r v) henabled hmode hline hdots hraised

/-- A display stays timed while time passes. -/
lemma advance (hd : d.Timed) (cycles : UInt32) (video : Vector UInt8 0x2000)
    (oam : Vector UInt8 0xA0) : (d.advance cycles video oam).display.Timed := by
  have hwell := lasting_wellFormed.advance hd.wellFormed cycles video oam
  unfold Display.advance at hwell ⊢
  by_cases hon : d.enabled = true
  · rw [if_pos hon] at hwell ⊢
    obtain ⟨hframed, -⟩ := Framed.run (p := { display := d }) (hd.framed hon) video oam
      (d.dots + cycles)
    have hcontrol := control_run { display := d } video oam (d.dots + cycles)
    refine ⟨hwell, fun _ => hframed, fun hoff => ?_⟩
    unfold enabled at hon hoff
    rw [hcontrol] at hoff
    cases hon.symm.trans hoff
  · rw [if_neg hon]
    exact hd

end Timed

/-- The displays in use. -/
theorem Reached.timed (hd : d.Reached) : d.Timed := by
  induction hd with
  | cold => exact ⟨wellFormed_cold, nofun, fun _ => ⟨rfl, rfl, rfl⟩⟩
  | postBoot =>
    exact ⟨wellFormed_postBoot, fun _ => framed_first nofun rfl rfl, nofun⟩
  | write r v _ ih => exact ih.write r v
  | advance cycles video oam _ ih => exact ih.advance cycles video oam

/-- Time moves the counter of a display that is on. -/
lemma Timed.advance_counts (hd : d.Timed) (hon : d.enabled = true) {cycles : UInt32}
    (hfits : d.dots.toNat + cycles.toNat < UInt32.size) (video : Vector UInt8 0x2000)
    (oam : Vector UInt8 0xA0) :
    (d.advance cycles video oam).display.position =
      (d.position + cycles.toNat) % frameCycles ∧
    ((d.advance cycles video oam).frameDone = true ↔ frameCycles ≤ d.position + cycles.toNat) ∧
    ((d.advance cycles video oam).requests.vblank = true ↔
      PassesVblank d.position (d.position + cycles.toNat)) := by
  have hframed := hd.framed hon
  have hdots : d.dots.toNat < d.mode.duration.toNat := UInt32.lt_iff_toNat_lt.mp hd.wellFormed.dots
  have hsum : d.start + (d.dots + cycles).toNat = d.position + cycles.toNat := by
    rw [UInt32.toNat_add, Nat.mod_eq_of_lt hfits, position, Nat.add_assoc]
  obtain ⟨-, hposition, hdone, hreq⟩ := Framed.run (p := { display := d }) hframed video oam
    (d.dots + cycles)
  have hpassed : ¬ PassesVblank d.start d.position :=
    hframed.not_passesVblank (Nat.add_lt_add_left hdots _)
  have hsplit := passesVblank_split (a := d.start) (b := d.position)
    (c := d.position + cycles.toNat) (Nat.le_add_right _ _) (Nat.le_add_right _ _)
  rw [hsum] at hposition hdone hreq
  unfold Display.advance
  rw [if_pos hon]
  refine ⟨hposition, ?_, ?_⟩
  · simpa using hdone
  · simpa [hsplit, hpassed] using hreq

/-- A display in use counts dots.  While it is on, it is in `vblank` on the lines below the screen,
whose interrupt was asked for, and time adds to `position`; a frame is completed when the counter
reaches `frameCycles`, and the interrupt is asked for when it passes `vblankStart`.  While the
display is off, it rests. -/
theorem frame_counter (hd : d.Reached) :
    d.dots < d.mode.duration ∧ d.line ≤ lastLine ∧
    (d.enabled = true →
      (d.mode = .vblank ↔ visibleLines ≤ d.line) ∧
      (visibleLines ≤ d.line ↔ d.vblankRaised = true)) ∧
    (d.enabled = false →
      d.mode = .hblank ∧ d.line = 0 ∧ d.dots = 0 ∧
      ∀ cycles video oam, d.advance cycles video oam = { display := d }) ∧
    (d.enabled = true → ∀ cycles video oam, d.dots.toNat + cycles.toNat < UInt32.size →
      (d.advance cycles video oam).display.position =
        (d.position + cycles.toNat) % frameCycles ∧
      ((d.advance cycles video oam).frameDone = true ↔
        frameCycles ≤ d.position + cycles.toNat) ∧
      ((d.advance cycles video oam).requests.vblank = true ↔
        ∃ n, d.position < n ∧ n ≤ d.position + cycles.toNat ∧
          n % frameCycles = vblankStart)) := by
  have htimed := hd.timed
  refine ⟨htimed.wellFormed.dots, htimed.wellFormed.line, fun hon => ?_, fun hoff => ?_, ?_⟩
  · have hframed := htimed.framed hon
    exact ⟨hframed.mode_eq_vblank_iff, hframed.raised.symm⟩
  · have hrest := htimed.resting hoff
    refine ⟨hrest.mode, hrest.line, hrest.dots, fun cycles video oam => ?_⟩
    simp [Display.advance, hoff]
  · intro hon cycles video oam hfits
    exact htimed.advance_counts hon hfits video oam

/-- The display after the start-up program, up to the first vertical blank. -/
theorem frame_counter_postBoot :
    (postBoot.advance 65664 (.replicate 0x2000 0) (.replicate 0xA0 0)).display.position =
      vblankStart ∧
    (postBoot.advance 65664 (.replicate 0x2000 0) (.replicate 0xA0 0)).requests.vblank = true := by
  obtain ⟨-, -, -, -, htime⟩ := frame_counter Reached.postBoot
  have hon : postBoot.enabled = true := by decide
  obtain ⟨hposition, -, hvblank⟩ := htime hon 65664 (.replicate 0x2000 0) (.replicate 0xA0 0)
    (by decide)
  exact ⟨hposition, hvblank.mpr ⟨vblankStart, by decide, by decide, by decide⟩⟩

end Display

end Handheld
