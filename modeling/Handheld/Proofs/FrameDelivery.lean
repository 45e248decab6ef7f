import Handheld.Proofs.Calls
import Handheld.Proofs.Picture

/-!
# The delivery of frames

A step ends at most one mode of the display, so a display completes a frame in a step exactly if the
step leads it from another line to the first one (`Display.frameDone_iff`).  Then the screen gets
the picture of the display.

`Console.Pictured old` describes the consoles with a cartridge together with the picture `old` of
the saved state that they have accepted last.  The main statement is
`Console.Pictured.screen_stepOnce`: in each step the screen gets the whole picture or hears of
nothing, and each pixel of the picture has one of the four shades, or is still that of `old`.  What
a saved state says of a pixel is not looked at, so nothing better is true: for any shade at all,
each console with a cartridge accepts a state whose next step hands over a pixel of this shade
(`Console.Loaded.exists_pixel`).
-/

namespace Handheld

/-! ### Complete frames -/

namespace Display

variable {d : Display}

/-- The end of a mode completes a frame exactly if it leads from another line to the first one. -/
lemma frameDone_endMode (p : Progress) (hdone : p.frameDone = false)
    (hline : p.display.line ≤ lastLine + 1) (video : Vector UInt8 0x2000)
    (oam : Vector UInt8 0xA0) :
    (p.endMode video oam).frameDone = true ↔
      p.display.line ≠ 0 ∧ (p.endMode video oam).display.line = 0 := by
  have hle : p.display.line.toNat ≤ 154 := UInt8.le_iff_toNat_le.mp hline
  have hsucc : p.display.line + 1 ≠ 0 := by
    intro h
    have h' := congrArg UInt8.toNat h
    rw [UInt8.toNat_add] at h'
    change (p.display.line.toNat + 1) % 256 = 0 at h'
    omega
  obtain ⟨-, hdraw⟩ := Placed.draw_place p.display video oam
  unfold Progress.endMode
  simp only
  split
  · simp [Progress.enter, hdone]
  · simp [Progress.enter, hdone, hdraw]
  · simp [Progress.enter, hdone, hsucc]
  · rename_i hmode
    split
    · rename_i hlast
      have hne : p.display.line ≠ 0 := by
        intro h
        rw [h] at hlast
        exact absurd hlast (by decide)
      simp [Progress.enter, hne]
    · simp [hdone, hsucc]

/-- In the time of a step at most one mode ends. -/
lemma run_of_short {p : Progress} {dots : UInt32}
    (hshort : dots.toNat < p.display.mode.duration.toNat + 80)
    (hover : p.display.mode.duration ≤ dots) (video : Vector UInt8 0x2000)
    (oam : Vector UInt8 0xA0) :
    Progress.run video oam p dots =
      { (p.endMode video oam).compareLine with
        display := { (p.endMode video oam).compareLine.display with
          dots := dots - p.display.mode.duration } } := by
  rw [run_of_le video oam hover, run_of_lt]
  obtain ⟨hnext, -⟩ := (p.endMode video oam).compareLine.display.mode.duration_bounds
  rw [UInt32.lt_iff_toNat_lt, UInt32.toNat_sub_of_le _ _ hover]
  omega

/-- In the time of a step a frame is completed exactly if the display goes from another line to the
first one. -/
theorem frameDone_iff (hd : d.Within (lastLine + 1)) {cycles : UInt32} (hcycles : cycles ≤ 48)
    (video : Vector UInt8 0x2000) (oam : Vector UInt8 0xA0) :
    (d.advance cycles video oam).frameDone = true ↔
      d.line ≠ 0 ∧ (d.advance cycles video oam).display.line = 0 := by
  have hdots := UInt32.lt_iff_toNat_lt.mp hd.dots
  have hcycles' : cycles.toNat ≤ 48 := UInt32.le_iff_toNat_le.mp hcycles
  obtain ⟨-, hlong⟩ := d.mode.duration_bounds
  have hshort : (d.dots + cycles).toNat < d.mode.duration.toNat + 80 := by
    rw [UInt32.toNat_add, Nat.mod_eq_of_lt (by omega)]
    omega
  unfold Display.advance
  by_cases hon : d.enabled = true
  · rw [if_pos hon]
    by_cases hover : d.mode.duration ≤ d.dots + cycles
    · rw [run_of_short (p := { display := d }) hshort hover]
      exact frameDone_endMode { display := d } rfl hd.line video oam
    · rw [run_of_lt (p := { display := d }) video oam (UInt32.not_le.mp hover)]
      simp
  · rw [if_neg hon]
    simp

end Display

/-! ### Consoles -/

namespace Machine

variable {P : Display → Prop} {m m₀ : Machine}

/-- A step completes a frame exactly if the display goes from another line to the first one. -/
lemma frameDone_drawn {journal : Journal}
    (hd : (m.executed journal).display.Within (Display.lastLine + 1)) :
    (m.drawn journal).frameDone = true ↔
      (m.executed journal).display.line ≠ 0 ∧ (m.drawn journal).display.line = 0 :=
  Display.frameDone_iff hd (Core.macroCost_le _) _ _

end Machine

namespace Display

/-- A display that is at most one line behind the last one, and whose pixels have one of the four
shades or are those of an old picture. -/
def Shown (old : List UInt8) (d : Display) : Prop := d.Within (lastLine + 1) ∧ d.frame.Shaded old

/-- Writes and time keep this. -/
lemma lasting_shown (old : List UInt8) : Lasting (Shown old) where
  write hd r v :=
    ⟨(lasting_within (by decide)).write hd.1 r v, (lasting_shaded old).write hd.2 r v⟩
  advance hd cycles video oam :=
    ⟨(lasting_within (by decide)).advance hd.1 cycles video oam,
      (lasting_shaded old).advance hd.2 cycles video oam⟩

end Display

/-- A machine that has just been switched on shows the blank picture. -/
lemma Machine.shown_build {m : Machine} {image : Array UInt8} {boot : Option (Array UInt8)}
    {config : Config} (h : build image boot config = .ok m) (old : List UInt8) :
    m.WellFormed (Display.Shown old) m := by
  have hwell := wellFormed_build h
  have hframe : m.bus.display.frame = Frame.blank := by
    obtain ⟨-, header, -, rfl⟩ := build_eq_ok_iff.mp h
    cases boot <;> rfl
  refine ⟨{ hwell.bus with display := ⟨hwell.bus.display.toAcceptable.within_succ, ?_⟩ },
    hwell.trace⟩
  rw [hframe]
  exact Frame.shaded_blank

namespace Console

/-- An accepted state brings its picture. -/
lemma Holds.importState_shown {η : Type} {c : Console η} {P : Display → Prop} {config : Config}
    {m₀ : Machine} {image : Array UInt8} {boot : Option (Array UInt8)} {bytes : List UInt8}
    (hbuild : Machine.build image boot config = .ok m₀) (hc : c.Holds P config m₀)
    (h : (c.importState bytes).1 = .ok ()) :
    (c.importState bytes).2.Holds (Display.Shown (pictureBytes bytes)) config m₀ := by
  obtain ⟨m, hm, -⟩ := hc.machine
  rcases importState_cases hm (hc.rebuild hbuild hm) bytes with
    ⟨body, m', journal, hbody, hrestored, himport⟩ | ⟨-, e, journal, himport⟩
  · have hwell := Machine.wellFormed_restored (Machine.wellFormed_build hbuild) hrestored
      fun _ hd => hd.toAcceptable
    have hshaded : m'.bus.display.frame.Shaded (pictureBytes bytes) := by
      rw [Machine.frame_restored hbody hrestored]
      exact Frame.shaded_ofArray _
    rw [himport]
    exact ⟨hc.config, _, rfl,
      ⟨{ hwell.bus with display := ⟨hwell.bus.display.within_succ, hshaded⟩ }, hwell.trace⟩⟩
  · rw [himport] at h
    cases h

variable {η : Type} [Host η] {c : Console η} {old : List UInt8}

/-- The consoles with a cartridge, however they have been used since it was inserted, and the
picture of the saved state that was accepted last since then.  It is empty if there was none. -/
inductive Pictured : List UInt8 → Console η → Prop
  | load {c : Console η} (image : Array UInt8) (boot : Option (Array UInt8)) (file : Option String)
      (h : (c.load image boot file).1 = .ok ()) : Pictured [] (c.load image boot file).2
  /-- Another cartridge is refused. -/
  | refuse {old : List UInt8} {c : Console η} (image : Array UInt8) (boot : Option (Array UInt8))
      (file : Option String) (h : (c.load image boot file).1 ≠ .ok ()) :
      Pictured old c → Pictured old (c.load image boot file).2
  | step {old : List UInt8} {c : Console η} : Pictured old c → Pictured old c.stepOnce.2
  | write {old : List UInt8} {c : Console η} (addr : UInt16) (v : UInt8) :
      Pictured old c → Pictured old (c.write addr v)
  | setRegister {old : List UInt8} {c : Console η} (r : RegisterId) (v : UInt32) :
      Pictured old c → Pictured old (c.setRegister r v).2
  | debug {old : List UInt8} {c : Console η} (r : Debug.Request) :
      Pictured old c → Pictured old (c.debug r).2
  | importBattery {old : List UInt8} {c c' : Console η} (bytes : List UInt8)
      (h : c.importBattery bytes = .ok c') : Pictured old c → Pictured old c'
  | importState {old : List UInt8} {c : Console η} (bytes : List UInt8)
      (h : (c.importState bytes).1 = .ok ()) :
      Pictured old c → Pictured (pictureBytes bytes) (c.importState bytes).2
  /-- A saved state is refused. -/
  | refuseState {old : List UInt8} {c : Console η} (bytes : List UInt8)
      (h : (c.importState bytes).1 ≠ .ok ()) :
      Pictured old c → Pictured old (c.importState bytes).2
  /-- The surroundings, the disk and the journal change, and the machine does not. -/
  | outside {old : List UInt8} {c : Console η} (host : η) (disk : Disk) (journal : Journal) :
      Pictured old c → Pictured old { c with host := host, disk := disk, journal := journal }

namespace Pictured

/-- A run asks the host and takes steps, and does nothing else. -/
lemma runSteps {config : Config} {disk : Disk} {m : Machine} {host : η} {journal : Journal}
    (h : Pictured old ⟨config, some m, host, disk, journal⟩) (breakpoints : List UInt16) (n : Nat) :
    let ran := Console.runSteps breakpoints n m host journal
    Pictured old ⟨config, some ran.machine, ran.host, disk, ran.journal⟩ := by
  induction n generalizing m host journal with
  | zero => exact h
  | succ n ih =>
    have hasked : Pictured old ⟨config, some m, (Host.pollContinue host).2, disk, journal⟩ :=
      h.outside _ _ _
    unfold Console.runSteps
    split
    · rename_i host' hanswer
      rw [hanswer] at hasked
      exact hasked
    · rename_i host' hanswer
      rw [hanswer] at hasked
      split
      · exact hasked
      · exact ih hasked.step

/-- A console after a run. -/
lemma run (h : Pictured old c) (limit : Nat) (breakpoints : List UInt16) :
    Pictured old (c.run limit breakpoints).2 := by
  obtain ⟨config, machine, host, disk, journal⟩ := c
  cases machine with
  | none => exact h
  | some m => exact runSteps h breakpoints limit

end Pictured

/-- The pixels of the display have one of the four shades or are still those of the saved state. -/
lemma Pictured.built (hc : Pictured old c) : c.Built (Display.Shown old) := by
  have hP := Display.lasting_shown
  induction hc with
  | load image boot file h =>
    obtain ⟨m₀, hbuild, hholds⟩ := Holds.load_of (fun m hm => Machine.shown_build hm []) h
    exact ⟨image, boot, _, m₀, hbuild, hholds⟩
  | refuse image boot file h _ ih => exact ih.imp fun _ hholds => hholds.refuse h
  | step _ ih => exact ih.imp fun _ hholds => hholds.step (hP _)
  | write addr v _ ih => exact ih.imp fun _ hholds => hholds.write (hP _) addr v
  | setRegister r v _ ih => exact ih.imp fun _ hholds => hholds.setRegister r v
  | debug r _ ih => exact ih.imp fun _ hholds => hholds.debug (hP _) r
  | importBattery bytes h _ ih => exact ih.imp fun _ hholds => hholds.importBattery h
  | importState bytes h _ ih => exact ih.imp fun hbuild hholds => hholds.importState_shown hbuild h
  | refuseState bytes h _ ih => exact ih.imp fun hbuild hholds => hholds.refuseState hbuild h
  | outside host disk journal _ ih => exact ih.imp fun _ hholds => hholds.congr rfl rfl

/-- A step hands the picture over, pixel by pixel and line by line, and says that it is complete, if
the display goes from another line to the first one; otherwise the screen hears of nothing.  Each
pixel has one of the four shades, or is still that of the saved state that was accepted last.  The
screen hears the same if nothing is written down. -/
theorem Pictured.screen_stepOnce {c : Console (Observed η)} (hc : Pictured old c) :
    ∃ m m', c.machine = some m ∧ c.stepOnce.2.machine = some m' ∧
      c.stepOnce.2.host.screen = c.host.screen ++
        (if (m.executed c.journal).display.line ≠ 0 ∧ m'.bus.display.line = 0 then
          m'.bus.display.frame.calls
        else []) ∧
      c.stepOnce.2.host.host = (m.step c.host.host c.journal).host ∧
      m'.bus.display.frame.Shaded old ∧
      ((∀ v ∈ old, v ≤ 3) → ∀ y x, (m'.bus.display.frame.get y).get x ≤ 3) := by
  obtain ⟨image, boot, config, m₀, hbuild, hholds⟩ := hc.built
  obtain ⟨m, hm, hwell⟩ := hholds.machine
  have hstep := hwell.step (Display.lasting_shown old) c.host c.journal
  have hexecuted := hwell.executed (Display.lasting_shown old) c.journal
  have hdone := Machine.frameDone_drawn hexecuted.display.1
  have hagree := Observed.agree (η := η)
  obtain ⟨-, -, hhost⟩ := Machine.step_agree hagree (a := c.host) rfl m m.batteryFile c.journal
    c.journal
  refine ⟨m, _, hm, machine_stepOnce hm, ?_, ?_, hstep.bus.display.2, ?_⟩
  · rw [host_stepOnce hm, Machine.screen_step, Machine.display_step]
    simp only [hdone]
  · rw [host_stepOnce hm]
    exact hhost
  · exact hstep.bus.display.2.le

/-- What `screen_stepOnce` says about the small cartridge after a few steps. -/
theorem Pictured.screen_stepOnce_plainImage :
    let c := ((watched.load Cartridge.plainImage).2.run 3 []).2
    ∃ m m', c.machine = some m ∧ c.stepOnce.2.machine = some m' ∧
      c.stepOnce.2.host.screen = c.host.screen ++
        (if (m.executed c.journal).display.line ≠ 0 ∧ m'.bus.display.line = 0 then
          m'.bus.display.frame.calls
        else []) ∧
      ∀ y x, (m'.bus.display.frame.get y).get x ≤ 3 := by
  intro c
  have hc : Pictured [] c := run (.load Cartridge.plainImage none none (load_plainImage watched).1) 3 []
  obtain ⟨m, m', hm, hm', hscreen, -, -, hshades⟩ := screen_stepOnce hc
  exact ⟨m, m', hm, hm', hscreen, hshades (by simp)⟩

end Console

/-! ### A shade that there is not -/

namespace Display

/-- A display that is on and has one dot left of the frame, and whose first pixel has a given
shade. -/
def finishing (shade : UInt8) : Display :=
  { postBoot with
    mode := .vblank, line := lastLine, dots := 455, frame := Frame.ofArray #[shade] }

variable (shade : UInt8)

lemma acceptable_finishing : (finishing shade).Acceptable where
  select := UInt8.zero_and
  line := UInt8.le_rfl
  dots := (by decide : (455 : UInt32) < 456)

/-- A display with one dot left of the frame completes it in the time of the shortest step. -/
lemma advance_finishing (video : Vector UInt8 0x2000) (oam : Vector UInt8 0xA0) :
    ((finishing shade).advance idleCycles video oam).frameDone = true ∧
      ((finishing shade).advance idleCycles video oam).display.frame = Frame.ofArray #[shade] := by
  have hon : (finishing shade).enabled = true := by
    change postBoot.enabled = true
    decide
  have hover : Mode.vblank.duration ≤ 455 + idleCycles := by decide
  have hshort : ((455 : UInt32) + idleCycles).toNat < Mode.vblank.duration.toNat + 80 := by decide
  have hdots : (finishing shade).dots = 455 := rfl
  rw [Display.advance, if_pos hon, hdots,
    run_of_short (p := { display := finishing shade }) hshort hover]
  exact ⟨rfl, rfl⟩

end Display

namespace Console

variable {η : Type} [Host η] {c : Console (Observed η)}

/-- Every console with a cartridge accepts a state whose next step hands over a pixel of any
shade. -/
theorem Loaded.exists_pixel (hc : Loaded c) (shade : UInt8) : ∃ bytes c',
    c.importState bytes = (.ok (), c') ∧ c'.host = c.host ∧
      ∃ calls, c'.stepOnce.2.host.screen = c.host.screen ++ calls ∧ .pixel shade 0 0 ∈ calls := by
  obtain ⟨bytes, m, journal, himport, hhalted, hpending, hdisplay⟩ :=
    hc.importState_halted (Display.acceptable_finishing shade)
  obtain ⟨hdone, hframe⟩ := Display.advance_finishing shade m.bus.videoRam m.bus.spriteRam
  have hdrawn := Machine.drawn_of_halted hhalted hpending journal
  rw [hdisplay] at hdrawn
  have hhost := host_stepOnce (c := { c with machine := some m, journal := journal }) rfl
  have hscreen := m.screen_step c.host journal
  rw [Machine.display_step, hdrawn, if_pos hdone, hframe] at hscreen
  refine ⟨bytes, _, himport, rfl, _, (congrArg Observed.screen hhost).trans hscreen, ?_⟩
  refine List.mem_append_left _ (List.mem_ofFn.mpr ⟨0, ?_⟩)
  rw [Frame.get_ofArray]
  rfl

/-- A state for the small cartridge with a shade that is not one of the four: the screen has heard
of nothing before the step, and in the step the first pixel is handed over with this shade. -/
theorem pixel_of_unknown_shade :
    let c := (watched.load Cartridge.plainImage).2
    ∃ bytes c', c.importState bytes = (.ok (), c') ∧ c'.host.screen = [] ∧
      .pixel 4 0 0 ∈ c'.stepOnce.2.host.screen := by
  intro c
  obtain ⟨-, -, -, -, -, -, hhost⟩ := load_eq (load_plainImage watched).1
  have hc : Loaded c := .load Cartridge.plainImage none none (load_plainImage watched).1
  obtain ⟨bytes, c', himport, hhost', calls, hscreen, hpixel⟩ := hc.exists_pixel 4
  refine ⟨bytes, c', himport, ?_, ?_⟩
  · rw [hhost']
    exact congrArg Observed.screen hhost
  · rw [hscreen]
    exact List.mem_append_right _ hpixel

end Console

end Handheld
