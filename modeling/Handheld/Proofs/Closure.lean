import Handheld.Proofs.Grammar
import Handheld.Proofs.Locality

/-!
# What follows an imported state

Importing a state checks the fields of the display one by one, and not the mode against the line.  A
display that waits in a mode of the screen for the end of the last line is accepted if it is on, and
goes on to a line that there is not; `Display.Confined` excludes it, and no other acceptable display
leaves the frame (`Display.Acceptable.confined_iff`).  Even this one gets only one line further,
since the line after that is the first one again.

The main statement is `Console.importState_lasting`: after any number of steps from an accepted
state the machine can be exported, and its state is accepted again exactly if the display is on a
line of the frame; and it always is on one if it was `Confined` when the state was imported.
Each console with a cartridge accepts a state whose next step leads to a state that it refuses
(`Console.Loaded.exists_leaving`): the processor sleeps, and the display is `Display.lingering`.
-/

namespace Handheld

/-- The dots from the beginning of a mode to the end of the line. -/
def Mode.remaining : Mode → UInt32
  | .hblank => 204
  | .vblank => 456
  | .search => 456
  | .transfer => 376

/-- The modes last from 80 to 456 dots. -/
lemma Mode.duration_bounds (m : Mode) : 80 ≤ m.duration.toNat ∧ m.duration.toNat ≤ 456 := by
  cases m <;> decide

namespace Display

variable {d : Display}

/-- The last line is below the screen, as long as the display is on. -/
def Confined (d : Display) : Prop := d.enabled = true → d.line = lastLine → d.mode = .vblank

/-- An acceptable display that is confined does not leave the lines of a frame. -/
lemma Acceptable.wellFormed (hd : d.Acceptable) (hconfined : d.Confined) : d.WellFormed :=
  ⟨hd.select, hd.line, hd.dots, hconfined⟩

/-- An acceptable display gets at most one line further. -/
lemma Acceptable.within_succ (hd : d.Acceptable) : d.Within (lastLine + 1) where
  select := hd.select
  line := UInt8.le_trans hd.line (by decide)
  dots := hd.dots
  confined _ hline := by
    have hle := hd.line
    rw [hline] at hle
    exact absurd hle (by decide)

/-! ### Leaving the frame -/

section

variable {p : Progress} {dots : UInt32} (video : Vector UInt8 0x2000) (oam : Vector UInt8 0xA0)

/-- The first mode of a run ends, if the run is long enough. -/
lemma run_of_le (h : p.display.mode.duration ≤ dots) :
    Progress.run video oam p dots = Progress.run video oam (p.endMode video oam).compareLine
      (dots - p.display.mode.duration) := by
  rw [Progress.run, if_pos h]

/-- A run that is too short for the first mode only counts. -/
lemma run_of_lt (h : dots < p.display.mode.duration) :
    Progress.run video oam p dots = { p with display := { p.display with dots := dots } } := by
  rw [Progress.run, if_neg (UInt32.not_le.mpr h)]

/-- The end of the last line, if it is waited for in a mode of the screen, leads behind it. -/
lemma line_run_hblank (hmode : p.display.mode = .hblank) (hline : p.display.line = lastLine) :
    (Progress.run video oam p 204).display.line = lastLine + 1 := by
  have hduration : p.display.mode.duration = 204 := by rw [hmode]; rfl
  have hend : (p.endMode video oam).compareLine.display.line = lastLine + 1 ∧
      (p.endMode video oam).compareLine.display.mode = .vblank := by
    simp only [Progress.endMode, hmode, hline]
    exact ⟨rfl, rfl⟩
  rw [run_of_le video oam (UInt32.le_of_eq hduration), run_of_lt]
  · exact hend.1
  · rw [hend.2, hduration]
    decide

/-- Drawing the last line is followed by its end. -/
lemma line_run_transfer (hmode : p.display.mode = .transfer)
    (hline : p.display.line = lastLine) :
    (Progress.run video oam p 376).display.line = lastLine + 1 := by
  have hduration : p.display.mode.duration = 172 := by rw [hmode]; rfl
  have hend : (p.endMode video oam).compareLine.display.mode = .hblank ∧
      (p.endMode video oam).compareLine.display.line = (p.display.draw video oam).line := by
    simp only [Progress.endMode, hmode]
    exact ⟨rfl, rfl⟩
  obtain ⟨-, hdraw⟩ := Placed.draw_place p.display video oam
  rw [run_of_le video oam (by rw [hduration]; decide), hduration]
  exact line_run_hblank video oam hend.1 (hend.2.trans (hdraw.trans hline))

/-- Looking for sprites on the last line is followed by drawing it. -/
lemma line_run_search (hmode : p.display.mode = .search) (hline : p.display.line = lastLine) :
    (Progress.run video oam p 456).display.line = lastLine + 1 := by
  have hduration : p.display.mode.duration = 80 := by rw [hmode]; rfl
  have hend : (p.endMode video oam).compareLine.display.mode = .transfer ∧
      (p.endMode video oam).compareLine.display.line = p.display.line := by
    simp only [Progress.endMode, hmode]
    exact ⟨rfl, rfl⟩
  rw [run_of_le video oam (by rw [hduration]; decide), hduration]
  exact line_run_transfer video oam hend.1 (hend.2.trans hline)

end

/-- A display that is not confined leaves the frame at the end of the line. -/
lemma line_advance_of_not_confined (hd : ¬ d.Confined) (video : Vector UInt8 0x2000)
    (oam : Vector UInt8 0xA0) :
    (d.advance (d.mode.remaining - d.dots) video oam).display.line = lastLine + 1 := by
  simp only [Confined, Classical.not_imp] at hd
  obtain ⟨hon, hline, hmode⟩ := hd
  have hsum : d.dots + (d.mode.remaining - d.dots) = d.mode.remaining := by grind
  rw [Display.advance, if_pos hon, hsum]
  cases h : d.mode with
  | vblank => exact absurd h hmode
  | hblank => exact line_run_hblank video oam h hline
  | transfer => exact line_run_transfer video oam h hline
  | search => exact line_run_search video oam h hline

/-- An acceptable display stays on the lines of a frame exactly if it is confined. -/
theorem Acceptable.confined_iff (hd : d.Acceptable) :
    d.Confined ↔ ∀ cycles video oam, (d.advance cycles video oam).display.line ≤ lastLine := by
  constructor
  · intro hconfined cycles video oam
    exact (lasting_wellFormed.advance (hd.wellFormed hconfined) cycles video oam).line
  · intro hframe
    by_contra hconfined
    have hline := line_advance_of_not_confined hconfined (.replicate _ 0) (.replicate _ 0)
    have hle := hframe (d.mode.remaining - d.dots) (.replicate _ 0) (.replicate _ 0)
    rw [hline] at hle
    exact absurd hle (by decide)

end Display

namespace Console

variable {η : Type} [Host η] {c c' : Console η} {config : Config} {m₀ : Machine}
  {P : Display → Prop}

/-- A console after a number of steps. -/
def stepped : Nat → Console η → Console η
  | 0, c => c
  | n + 1, c => stepped n c.stepOnce.2

/-- Steps keep a machine well-formed. -/
lemma Holds.stepped (hP : Display.Lasting P) (hc : c.Holds P config m₀) (n : Nat) :
    (stepped n c).Holds P config m₀ := by
  induction n generalizing c with
  | zero => exact hc
  | succ n ih => exact ih (hc.step hP)

omit [Host η] in
/-- The state of a machine can be exported. -/
lemma exportState_eq {m : Machine} (hm : c.machine = some m) : c.exportState = .ok m.save := by
  simp only [exportState, requireMachine, hm]
  rfl

/-- After any number of steps from an imported state, the display is at most one line behind the
last one, and the state is accepted again exactly if it is not behind it.  It never is if the
imported display was confined. -/
theorem importState_lasting {bytes : List UInt8} (hc : Loaded c)
    (himport : c.importState bytes = (.ok (), c')) :
    ∃ m, c'.machine = some m ∧ ∀ n, ∃ k exported, (stepped n c').machine = some k ∧
      (stepped n c').exportState = .ok exported ∧
      k.bus.display.line ≤ Display.lastLine + 1 ∧
      (((stepped n c').importState exported).1 = .ok () ↔
        k.bus.display.line ≤ Display.lastLine) ∧
      (m.bus.display.Confined → k.bus.display.line ≤ Display.lastLine) := by
  obtain ⟨image, boot, config, m₀, hbuild, hholds⟩ := hc.holds
  have hacceptable := hholds.acceptable hbuild himport
  obtain ⟨m, hm, hwell⟩ := hacceptable.machine
  refine ⟨m, hm, fun n => ?_⟩
  have hwithin : (stepped n c').Holds (Display.Within (Display.lastLine + 1)) config m₀ :=
    (hacceptable.mono fun _ hd => hd.within_succ).stepped (Display.lasting_within (by decide)) n
  obtain ⟨k, hk, -⟩ := hwithin.machine
  have hsave := Holds.importState_save hbuild hwithin hk
  refine ⟨k, k.save, hk, exportState_eq hk, (hwithin.display hk).line, ?_, fun hconfined => ?_⟩
  · rw [hsave]
    split
    · rename_i hline
      exact iff_of_true rfl hline
    · rename_i hline
      exact iff_of_false nofun hline
  · have hframe : c'.Holds Display.WellFormed config m₀ :=
      ⟨hacceptable.config, m, hm,
        ⟨{ hwell.bus with display := hwell.bus.display.wellFormed hconfined }, hwell.trace⟩⟩
    exact ((hframe.stepped Display.lasting_wellFormed n).display hk).line

/-- What `importState_lasting` says about the small cartridge: the state of the machine that has
just been switched on is imported, and accepted again after any number of steps. -/
theorem importState_lasting_plainImage :
    let c := (unused.load Cartridge.plainImage).2
    ∃ bytes c', c.importState bytes = (.ok (), c') ∧ ∀ n, ∃ exported,
      (stepped n c').exportState = .ok exported ∧
      ((stepped n c').importState exported).1 = .ok () := by
  intro c
  have hc : Loaded c := .load Cartridge.plainImage none none (load_plainImage unused).1
  obtain ⟨m₀, hbuild, hholds⟩ := Holds.load (c := unused) rfl (load_plainImage unused).1
  obtain ⟨m, hm, hwell⟩ := hholds.machine
  have hrebuild := Holds.rebuild hbuild hholds hm
  obtain ⟨journal, himport⟩ := importState_of_acceptable hm hrebuild
    (hwell.mono fun _ hd => hd.toAcceptable)
  obtain ⟨m', hm', hlasting⟩ := importState_lasting hc himport
  obtain rfl := Option.some.inj hm'
  refine ⟨m.save, _, himport, fun n => ?_⟩
  obtain ⟨k, exported, -, hexport, -, haccepted, hframe⟩ := hlasting n
  exact ⟨exported, hexport, haccepted.mpr (hframe hwell.bus.display.confined)⟩

end Console

/-! ### An accepted state that does not last -/

namespace Display

/-- A display that is on and has four dots left of the last line, but waits for another line of the
screen. -/
def lingering : Display := { postBoot with mode := .hblank, line := lastLine, dots := 200 }

lemma acceptable_lingering : lingering.Acceptable where
  select := UInt8.zero_and
  line := UInt8.le_rfl
  dots := (by decide : (200 : UInt32) < 204)

lemma not_confined_lingering : ¬ lingering.Confined := by
  intro h
  cases h (by decide) rfl

end Display

/-- A machine that has just been switched on asks for no interrupt. -/
lemma Machine.interrupts_build {m : Machine} {image : Array UInt8}
    {boot : Option (Array UInt8)} {config : Config} (h : build image boot config = .ok m) :
    m.bus.interrupts = {} := by
  obtain ⟨-, header, -, rfl⟩ := build_eq_ok_iff.mp h
  rfl

/-- A transfer into sprite memory leaves the display alone. -/
lemma Bus.display_transfer (n : Nat) (b : Bus) : (Bus.transfer n b).display = b.display := by
  obtain ⟨ram, dma, h⟩ := Bus.transfer_eq n b
  rw [h]

/-- A transfer into sprite memory leaves the interrupts alone. -/
lemma Bus.interrupts_transfer (n : Nat) (b : Bus) :
    (Bus.transfer n b).interrupts = b.interrupts := by
  obtain ⟨ram, dma, h⟩ := Bus.transfer_eq n b
  rw [h]

/-- A halted processor that nothing wakes lets a little time pass for the display. -/
lemma Machine.display_step_of_halted {η : Type} [Host η] {m : Machine}
    (hhalted : m.cpu.halted = true) (hpending : m.bus.interrupts.pending.first? = none)
    (host : η) (journal : Journal) :
    (m.step host journal).machine.bus.display =
      (m.bus.display.advance idleCycles m.bus.videoRam m.bus.spriteRam).display := by
  obtain ⟨cpu, bus, clock, batteryFile⟩ := m
  have hservice : Core.service (⟨cpu, ⟨bus, journal⟩⟩ : Core ReportingBus) =
      (0, ⟨cpu, ⟨bus, journal⟩⟩) := Core.service_of_not_pending hpending
  have hstep : Core.step (⟨cpu, ⟨bus, journal⟩⟩ : Core ReportingBus) =
      (idleCycles, ⟨cpu, ⟨bus, journal⟩⟩) := Core.step_of_halted hhalted
  simp only [Machine.step, hservice, hstep]
  exact Bus.display_transfer _ _

/-- A halted processor that nothing wakes lets a lingering display leave the frame. -/
lemma Machine.line_step_of_lingering {η : Type} [Host η] {m : Machine}
    (hhalted : m.cpu.halted = true) (hpending : m.bus.interrupts.pending.first? = none)
    (hdisplay : m.bus.display = Display.lingering) (host : η) (journal : Journal) :
    (m.step host journal).machine.bus.display.line = Display.lastLine + 1 := by
  have hcycles : idleCycles = Display.lingering.mode.remaining - Display.lingering.dots := by
    decide
  rw [Machine.display_step_of_halted hhalted hpending host journal, hdisplay, hcycles]
  exact Display.line_advance_of_not_confined Display.not_confined_lingering _ _

namespace Console

variable {η : Type} [Host η] {c : Console η}

/-- The machine that sleeps in front of the end of the last line. -/
def sleeping (m : Machine) : Machine :=
  { m with
    cpu := { m.cpu with halted := true }
    bus := { m.bus with display := Display.lingering } }

/-- A step of the console is a step of its machine. -/
lemma machine_stepOnce {m : Machine} (hm : c.machine = some m) :
    c.stepOnce.2.machine = some (m.step c.host c.journal).machine := by
  obtain ⟨config, machine, host, disk, journal⟩ := c
  obtain rfl : machine = some m := hm
  rfl

/-- Every console with a cartridge accepts a state with a halted processor, which nothing wakes, and
with any acceptable display. -/
lemma Loaded.importState_halted (hc : Loaded c) {d : Display} (hd : d.Acceptable) :
    ∃ bytes m journal,
      c.importState bytes = (.ok (), { c with machine := some m, journal := journal }) ∧
      m.cpu.halted = true ∧ m.bus.interrupts.pending.first? = none ∧ m.bus.display = d := by
  obtain ⟨image, boot, config, m₀, hbuild, hholds⟩ := hc.holds
  obtain ⟨m, hm, -⟩ := hholds.machine
  have hfresh := Machine.wellFormed_build hbuild
  have hwell : ({ sleeping m₀ with bus := { m₀.bus with display := d } } : Machine).WellFormed
      Display.Acceptable m₀ := ⟨{ hfresh.bus with display := hd }, hfresh.trace⟩
  obtain ⟨journal, himport⟩ :=
    importState_of_acceptable hm (Holds.rebuild hbuild hholds hm) hwell
  refine ⟨_, _, journal, himport, rfl, ?_, rfl⟩
  change m₀.bus.interrupts.pending.first? = none
  rw [Machine.interrupts_build hbuild]
  decide

/-- Every console with a cartridge accepts a state whose next step leads to a state that it
refuses. -/
theorem Loaded.exists_leaving (hc : Loaded c) : ∃ bytes c' k exported,
    c.importState bytes = (.ok (), c') ∧
    c'.stepOnce.2.machine = some k ∧ k.bus.display.line = Display.lastLine + 1 ∧
    c'.stepOnce.2.exportState = .ok exported ∧
    (c'.stepOnce.2.importState exported).1 = .error (.badSnapshot (.component .displayLine)) := by
  obtain ⟨image, boot, config, m₀, hbuild, hholds⟩ := hc.holds
  obtain ⟨bytes, m, journal, himport, hhalted, hpending, hdisplay⟩ :=
    hc.importState_halted Display.acceptable_lingering
  have hk := machine_stepOnce (c := { c with machine := some m, journal := journal }) rfl
  have hline := Machine.line_step_of_lingering hhalted hpending hdisplay c.host journal
  have hwithin := ((hholds.acceptable hbuild himport).mono fun _ hd => hd.within_succ).step
    (Display.lasting_within (by decide))
  refine ⟨_, _, _, _, himport, hk, hline, exportState_eq hk, ?_⟩
  rw [Holds.importState_save hbuild hwithin hk, if_neg]
  rw [hline]
  decide

/-- A state for the small cartridge that is accepted, and whose next step leads to a state that is
refused. -/
theorem importState_leaves_frame :
    let c := (unused.load Cartridge.plainImage).2
    ∃ bytes c' k exported, c.importState bytes = (.ok (), c') ∧
      c'.stepOnce.2.machine = some k ∧ k.bus.display.line = Display.lastLine + 1 ∧
      c'.stepOnce.2.exportState = .ok exported ∧
      (c'.stepOnce.2.importState exported).1 =
        .error (.badSnapshot (.component .displayLine)) :=
  (Loaded.load Cartridge.plainImage none none (load_plainImage unused).1).exists_leaving

end Console

end Handheld
