import Handheld.Proofs.Additive.Bus
import Handheld.Proofs.Coincidence

/-!
# The status interrupt of the modes

Three bits of the status register select modes whose beginning asks for the status interrupt.  When
a display in use begins a mode is known in advance: `Display.StatAt` names the places of a frame at
which a selection asks for the interrupt, without a look at modes.

Within a mode there is no such place, and the end of a mode asks for the interrupt exactly if it
leads to one (`Framed.stat_endMode`).  So a run asks for it exactly if it passes such a place, no
matter how many modes end on the way: this is `Framed.stat_run`, and `Display.mode_interrupts` says
it of the passage of time.  Apart from this interrupt and that of the vertical blank, the display
asks for none, so that all other requests come from other devices (`Bus.requested_advance`).
-/

namespace Handheld

namespace Display

variable {d e : Display} {p : Progress} {a b : Nat}

/-! ### The places that ask for an interrupt -/

/-- The places of a frame at which the selected modes ask for the status interrupt: the last mode of
each line of the screen, the beginning of each line of the screen, and the beginning of the lines
below the screen. -/
def StatAt (select : UInt8) (place : Nat) : Prop :=
  Byte.bit select 3 = true ∧ place % 456 = 252 ∧ place < 65664 ∨
  Byte.bit select 5 = true ∧ place % 456 = 0 ∧ place < 65664 ∨
  Byte.bit select 4 = true ∧ place = 65664

/-- The next place is the last one that is passed. -/
lemma passes_succ (P : Nat → Prop) (hab : a ≤ b) :
    Passes P a (b + 1) ↔ Passes P a b ∨ P ((b + 1) % frameCycles) := by
  rw [passes_split P hab (Nat.le_succ b), Passes, Passes]
  refine or_congr_right ⟨?_, fun h => ⟨b + 1, Nat.lt_succ_self b, Nat.le_refl _, h⟩⟩
  rintro ⟨n, hbn, hnb, hn⟩
  rwa [show b + 1 = n by omega]

namespace Framed

/-- At the beginning of a mode the interrupt is asked for if the mode is selected; but a line below
the screen does not begin another mode, except for the first one. -/
lemma statAt_start_iff (he : e.Framed) :
    StatAt d.select e.start ↔
      d.selects e.mode = true ∧ (e.mode = .vblank → e.line = visibleLines) := by
  obtain ⟨hle, hbelow, hvisible⟩ := he.bounds
  unfold StatAt start lineCycles
  cases hmode : e.mode with
  | vblank =>
    have hge := hbelow hmode
    have hfirst : 456 * e.line.toNat = 65664 ↔ e.line = visibleLines := by
      rw [← UInt8.toNat_inj]
      change 456 * e.line.toNat = 65664 ↔ e.line.toNat = 144
      omega
    have hlate : ¬ 456 * e.line.toNat < 65664 := by omega
    simp [Mode.offset, selects, hfirst, hlate]
  | hblank =>
    have hlt := hvisible (by simp [hmode])
    have hplace : (456 * e.line.toNat + 252) % 456 = 252 := by omega
    have hbefore : 456 * e.line.toNat + 252 < 65664 := by omega
    simp only [Mode.offset, selects, hplace, hbefore, Nat.ne_of_lt hbefore]
    simp
  | search =>
    have hlt := hvisible (by simp [hmode])
    have hplace : (456 * e.line.toNat + 0) % 456 = 0 := by omega
    have hbefore : 456 * e.line.toNat + 0 < 65664 := by omega
    simp only [Mode.offset, selects, hplace, hbefore, Nat.ne_of_lt hbefore]
    simp
  | transfer =>
    have hlt := hvisible (by simp [hmode])
    have hplace : (456 * e.line.toNat + 80) % 456 = 80 := by omega
    have hbefore : 456 * e.line.toNat + 80 < 65664 := by omega
    simp only [Mode.offset, selects, hplace, Nat.ne_of_lt hbefore]
    simp

/-- While a mode lasts, no place asks for the interrupt. -/
lemma not_passes_statAt (hd : d.Framed) (select : UInt8)
    (hb : b < d.start + d.mode.duration.toNat) : ¬ Passes (StatAt select) d.start b := by
  obtain ⟨hle, hbelow, hvisible⟩ := hd.bounds
  rintro ⟨n, hlt, hnb, hn⟩
  unfold StatAt at hn
  unfold start lineCycles at hb hlt
  rw [frameCycles_eq] at hn
  cases hmode : d.mode with
  | vblank =>
    have hge := hbelow hmode
    simp only [hmode, Mode.offset, Mode.duration, UInt32.reduceToNat] at hb hlt
    omega
  | hblank | search | transfer =>
    have hline := hvisible (by simp [hmode])
    simp only [hmode, Mode.offset, Mode.duration, UInt32.reduceToNat] at hb hlt
    omega

/-- Every end of a mode begins another one, except for those of the lines below the screen. -/
lemma mode_endMode_ne_iff (hp : p.display.Framed) (video : Vector UInt8 0x2000)
    (oam : Vector UInt8 0xA0) :
    (p.endMode video oam).display.mode ≠ p.display.mode ↔
      ((p.endMode video oam).display.mode = .vblank →
        (p.endMode video oam).display.line = visibleLines) := by
  have hsucc := hp.toNat_succ
  obtain ⟨-, hbelow, hvisible⟩ := hp.bounds
  have hfirst : p.display.line + 1 = visibleLines ↔ p.display.line.toNat + 1 = 144 := by
    rw [← UInt8.toNat_inj, hsucc]
    rfl
  cases hmode : p.display.mode with
  | search =>
    simp only [Progress.endMode, hmode]
    simp [Progress.enter]
  | transfer =>
    simp only [Progress.endMode, hmode]
    simp [Progress.enter]
  | hblank =>
    have hlt := hvisible (by simp [hmode])
    have hnext : p.display.line + 1 < visibleLines ↔ p.display.line.toNat + 1 < 144 := by
      rw [UInt8.lt_iff_toNat_lt, hsucc]
      rfl
    simp only [Progress.endMode, hmode, Progress.enter, hnext, hfirst]
    by_cases hlast : p.display.line.toNat + 1 < 144
    · simp [hlast]
    · have hbegins : p.display.line.toNat + 1 = 144 := by omega
      simp [hbegins]
  | vblank =>
    have hge := hbelow hmode
    have hlater : ¬ p.display.line.toNat + 1 = 144 := by omega
    by_cases hlast : p.display.line + 1 > lastLine
    · simp only [Progress.endMode, hmode, if_pos hlast]
      simp [Progress.enter]
    · simp only [Progress.endMode, hmode, if_neg hlast, hfirst]
      simp [hlater]

/-- The end of a mode asks for the interrupt if it leads to one of the places. -/
theorem stat_endMode (hp : p.display.Framed) (video : Vector UInt8 0x2000)
    (oam : Vector UInt8 0xA0) :
    (p.endMode video oam).requests.stat = true ↔ p.requests.stat = true ∨
      StatAt p.display.select
        ((p.display.start + p.display.mode.duration.toNat) % frameCycles) := by
  obtain ⟨hframed, hend⟩ := hp.endMode video oam
  obtain ⟨hstart, -⟩ := hp.elapsed_endMode hend
  rw [Display.stat_endMode, ← hstart, hframed.statAt_start_iff, hp.mode_endMode_ne_iff, and_comm]

/-- Going through the modes asks for the interrupt if it passes one of the places, as long as it is
not asked for because of a line. -/
theorem stat_run (hp : p.display.Framed) (hquiet : p.display.selectsCoincidence = false)
    (video : Vector UInt8 0x2000) (oam : Vector UInt8 0xA0) (dots : UInt32) :
    (Progress.run video oam p dots).requests.stat = true ↔ p.requests.stat = true ∨
      Passes (StatAt p.display.select) p.display.start (p.display.start + dots.toNat) := by
  fun_induction Progress.run video oam p dots with
  | case1 p dots hover ih =>
    obtain ⟨hframed, hend⟩ := hp.endMode video oam
    obtain ⟨hstart, -⟩ := hp.elapsed_endMode hend
    obtain ⟨-, hselect, -⟩ := comparison_endMode p video oam
    have hquiet' : (p.endMode video oam).display.selectsCoincidence = false := by
      rw [selectsCoincidence, hselect]
      exact hquiet
    have hcompared : (p.endMode video oam).compareLine.requests.stat =
        (p.endMode video oam).requests.stat := by
      simp [Progress.compareLine, Sources.union, hquiet']
    have hselect' : (p.endMode video oam).compareLine.display.select = p.display.select := hselect
    have hstart' : (p.endMode video oam).compareLine.display.start =
        (p.display.start + p.display.mode.duration.toNat) % frameCycles := hstart
    have hle := UInt32.le_iff_toNat_le.mp hover
    have hpos := UInt32.lt_iff_toNat_lt.mp p.display.mode.duration_pos
    have hsplit : p.display.start + dots.toNat = p.display.start + p.display.mode.duration.toNat +
        (dots - p.display.mode.duration).toNat := by
      rw [UInt32.toNat_sub_of_le _ _ hover]
      omega
    have hmode := hp.not_passes_statAt p.display.select
      (b := p.display.start + (p.display.mode.duration.toNat - 1)) (by omega)
    -- The mode that ends passes its last place only.
    have hlast := passes_succ (StatAt p.display.select)
      (Nat.le_add_right p.display.start (p.display.mode.duration.toNat - 1))
    rw [show p.display.start + (p.display.mode.duration.toNat - 1) + 1 =
      p.display.start + p.display.mode.duration.toNat by omega] at hlast
    rw [ih (hframed.congr rfl rfl rfl) hquiet', hcompared, hp.stat_endMode, hselect', hstart',
      passes_mod, hsplit, passes_split _ (Nat.le_add_right _ p.display.mode.duration.toNat)
        (Nat.le_add_right _ _), hlast, or_assoc]
    simp [hmode]
  | case2 p dots hover =>
    have hlt : dots.toNat < p.display.mode.duration.toNat :=
      UInt32.lt_iff_toNat_lt.mp (UInt32.not_le.mp hover)
    have hnone := hp.not_passes_statAt p.display.select (Nat.add_lt_add_left hlt p.display.start)
    simp [hnone]

end Framed

/-! ### The passage of time -/

section

variable {source : Source} (hstat : source ≠ .stat) (hvblank : source ≠ .vblank)
include hstat hvblank

/-- The two interrupts of the display are no others. -/
lemma contains_own (stat vblank : Bool) :
    Sources.contains { stat := stat, vblank := vblank } source = false := by
  cases source with
  | stat => exact absurd rfl hstat
  | vblank => exact absurd rfl hvblank
  | timer | serial | joypad => rfl

/-- Entering a mode asks for no other interrupt. -/
lemma contains_enter (p : Progress) (m : Mode) :
    (p.enter m).requests.contains source = p.requests.contains source := by
  rw [Progress.enter, Sources.contains_union, contains_own hstat hvblank, Bool.or_false]

/-- The end of a mode asks for no other interrupt. -/
lemma contains_endMode (p : Progress) (video : Vector UInt8 0x2000) (oam : Vector UInt8 0xA0) :
    (p.endMode video oam).requests.contains source = p.requests.contains source := by
  unfold Progress.endMode
  dsimp only
  split
  · exact contains_enter hstat hvblank _ _
  · exact contains_enter hstat hvblank _ _
  · exact contains_enter hstat hvblank _ _
  · split
    · exact contains_enter hstat hvblank _ _
    · rfl

/-- A comparison of the line asks for no other interrupt. -/
lemma contains_compareLine (p : Progress) :
    p.compareLine.requests.contains source = p.requests.contains source := by
  rw [Progress.compareLine, Sources.contains_union, contains_own hstat hvblank, Bool.or_false]

/-- Time on the display asks for no other interrupt. -/
lemma contains_run (p : Progress) (video : Vector UInt8 0x2000) (oam : Vector UInt8 0xA0)
    (dots : UInt32) :
    (Progress.run video oam p dots).requests.contains source = p.requests.contains source := by
  fun_induction Progress.run video oam p dots with
  | case1 p dots hover ih =>
    exact ih.trans ((contains_compareLine hstat hvblank _).trans
      (contains_endMode hstat hvblank p video oam))
  | case2 p dots hover => rfl

/-- Whether or not the display is on. -/
lemma contains_advance (d : Display) (cycles : UInt32) (video : Vector UInt8 0x2000)
    (oam : Vector UInt8 0xA0) : (d.advance cycles video oam).requests.contains source = false := by
  have hnone : Sources.contains {} source = false := by cases source <;> rfl
  unfold advance
  split
  · exact (contains_run hstat hvblank _ video oam _).trans hnone
  · exact hnone

end

/-- As long as the wanted line is not selected, a display in use that is on asks for the status
interrupt exactly if its counter passes one of the places that the selected modes have in a frame.
Of all interrupts, the passage of time on the display touches only this one and that of the vertical
blank. -/
theorem mode_interrupts (hd : d.Reached) (hon : d.enabled = true)
    (hquiet : Byte.bit d.select 6 = false) {cycles : UInt32}
    (hfits : d.dots.toNat + cycles.toNat < UInt32.size) (video : Vector UInt8 0x2000)
    (oam : Vector UInt8 0xA0) :
    ((d.advance cycles video oam).requests.stat = true ↔
      ∃ n, d.position < n ∧ n ≤ d.position + cycles.toNat ∧ StatAt d.select (n % 70224)) ∧
    ∀ (c : InterruptController) (source : Source), source ≠ .stat → source ≠ .vblank →
      (c.raise (d.advance cycles video oam).requests).requested.contains source =
        c.requested.contains source := by
  have htimed := hd.timed
  have hframed := htimed.framed hon
  have hdots : d.dots.toNat < d.mode.duration.toNat :=
    UInt32.lt_iff_toNat_lt.mp htimed.wellFormed.dots
  have hsum : d.start + (d.dots + cycles).toNat = d.position + cycles.toNat := by
    rw [UInt32.toNat_add, Nat.mod_eq_of_lt hfits, position, Nat.add_assoc]
  have hadvance : d.advance cycles video oam =
      Progress.run video oam { display := d } (d.dots + cycles) := if_pos hon
  rw [hadvance]
  constructor
  · have hrun := Framed.stat_run (p := { display := d }) hframed hquiet video oam (d.dots + cycles)
    have hnone : ¬ Passes (StatAt d.select) d.start d.position :=
      hframed.not_passes_statAt d.select (Nat.add_lt_add_left hdots _)
    have hpassed := (passes_split (StatAt d.select) (Nat.le_add_right d.start d.dots.toNat)
      (Nat.le_add_right d.position cycles.toNat)).trans (or_iff_right hnone)
    rw [hsum, hpassed] at hrun
    exact hrun.trans (or_iff_right Bool.false_ne_true)
  · intro c source hstat hvblank
    rw [InterruptController.raise, Sources.contains_union, contains_run hstat hvblank]
    cases source <;> exact Bool.or_false _

/-- A display that selects the last mode of a line. -/
def selectingHblank : Display := postBoot.write 0x41 0x08

/-- The last mode of its first line begins after 252 cycles. -/
theorem mode_interrupts_selectingHblank :
    (selectingHblank.advance 252 (.replicate 0x2000 0) (.replicate 0xA0 0)).requests.stat =
      true := by
  have hfits : selectingHblank.dots.toNat + (252 : UInt32).toNat < UInt32.size := by decide
  obtain ⟨hstat, -⟩ := mode_interrupts (Reached.postBoot.write 0x41 0x08) (by decide) (by decide)
    hfits (.replicate 0x2000 0) (.replicate 0xA0 0)
  exact hstat.mpr ⟨252, by decide, by decide, .inl ⟨by decide, by decide, by decide⟩⟩

end Display

/-- All other interrupts are asked for by joypad, serial link and timer. -/
theorem Bus.requested_advance {η : Type} [Host η] {source : Source} (hstat : source ≠ .stat)
    (hvblank : source ≠ .vblank) (b : Bus) (cycles : UInt32) (host : η) :
    (b.advance cycles host).bus.interrupts.requested.contains source =
      (b.interrupts.requested.contains source || (b.signals cycles host).contains source) := by
  obtain ⟨ram, dma, h⟩ := b.advance_eq cycles host
  have hquiet : (b.display.advance cycles b.videoRam b.spriteRam).requests.contains source = false :=
    Display.contains_advance hstat hvblank b.display cycles _ _
  rw [h]
  change (b.interrupts.requested.union (b.raised cycles host)).contains source = _
  rw [Sources.contains_union, raised, Sources.contains_union, hquiet, Bool.false_or]

end Handheld
