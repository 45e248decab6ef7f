import Handheld.Bus
import Handheld.Proofs.Core.Simulation
import Handheld.Proofs.Saved.Cartridge
import Handheld.Proofs.Saved.Devices
import Handheld.Proofs.Saved.Display

/-!
# The bus in saved states

`Bus.WellFormed` puts the invariants of all components together, and says besides what never
changes while a cartridge is inserted: its image, the start-up program and the settings.  What it
says of the display is a parameter, since a state may be accepted whose display is not well-formed.
It survives writes (`Bus.WellFormed.write`), the passage of time (`Bus.WellFormed.advance`), and so
everything that a processor does to its memory (`Bus.closed_wellFormed`).  The main statements are
`Bus.carry?_peripheralsRecord` and `Bus.carry?_systemRecord`: the two parts of the saved form
together carry over everything to another bus with the same cartridge, if the display is
acceptable.  If it is behind the last line, the second part is refused
(`Bus.refuses_systemRecord`).
-/

namespace Handheld

namespace Bus

/-- A bus whose display has a given property and whose other parts can be saved, compared with the
one that was there when the cartridge was inserted. -/
structure WellFormed (P : Display → Prop) (b b₀ : Bus) : Prop where
  cartridge : b.cartridge.WellFormed b₀.cartridge
  bootRom : b.bootRom = b₀.bootRom
  /-- Only a start-up program that is there covers the cartridge. -/
  bootActive : b.bootActive = true → b.bootRom.isSome = true
  interrupts : b.interrupts.WellFormed
  sound : b.sound.WellFormed
  joypad : b.joypad.WellFormed b₀.joypad.period
  serial : b.serial.WellFormed
  timer : b.timer.WellFormed
  display : P b.display
  dma : b.dma.WellFormed
  reportUnmapped : b.reportUnmapped = b₀.reportUnmapped

variable {P Q : Display → Prop} {b b₀ s t : Bus}

/-- The bus of a console that has just been switched on can be saved. -/
lemma wellFormed_create {c : Cartridge} (hc : c.WellFormed c) (boot : Option (Array UInt8))
    (config : Config) :
    (create c boot config).WellFormed Display.WellFormed (create c boot config) where
  cartridge := hc
  bootRom := rfl
  bootActive := id
  interrupts := UInt8.zero_and
  sound := by
    simp only [create]
    split
    · exact Sound.wellFormed_cold
    · exact Sound.wellFormed_postBoot
  joypad := Joypad.wellFormed_every _
  serial := Serial.wellFormed_default
  timer := Timer.wellFormed_default
  display := by
    simp only [create]
    split
    · exact Display.wellFormed_cold
    · exact Display.wellFormed_postBoot
  dma := Dma.wellFormed_default
  reportUnmapped := rfl

namespace WellFormed

/-- A weaker property of the display. -/
lemma mono (hb : b.WellFormed P b₀) (h : ∀ d, P d → Q d) : b.WellFormed Q b₀ :=
  { hb with display := h _ hb.display }

/-! ### Accesses -/

/-- A write keeps a bus well-formed, whatever it reaches. -/
theorem write (hP : Display.Lasting P) (hb : b.WellFormed P b₀) (addr : UInt16) (v : UInt8) :
    (b.write addr v).WellFormed P b₀ := by
  unfold Bus.write
  split
  · exact { hb with cartridge := hb.cartridge.writeControl _ v }
  · split
    · exact { hb with }
    · exact hb
  · exact { hb with cartridge := hb.cartridge.writeRam _ v }
  · exact { hb with }
  · split
    · exact { hb with }
    · exact hb
  · exact { hb with joypad := hb.joypad.write v }
  · exact { hb with serial := hb.serial.write _ v }
  · exact { hb with timer := hb.timer.write _ v }
  · exact { hb with interrupts := hb.interrupts }
  · exact { hb with sound := hb.sound.write _ v }
  · exact { hb with dma := Dma.wellFormed_start v }
  · exact { hb with display := hP.write hb.display _ v }
  · split
    · exact hb
    · exact { hb with bootActive := nofun }
  · exact { hb with }
  · exact { hb with interrupts := InterruptController.wellFormed_writeEnable _ v }
  · exact hb

/-- New requests for interrupts keep a bus well-formed. -/
lemma raise (hb : b.WellFormed P b₀) (x : Sources) :
    ({ b with interrupts := b.interrupts.raise x } : Bus).WellFormed P b₀ :=
  { hb with interrupts := hb.interrupts }

/-! ### Time -/

/-- A byte that goes over into sprite memory keeps a bus well-formed. -/
lemma transferByte (hb : b.WellFormed P b₀) (hactive : b.dma.active = true) :
    b.transferByte.WellFormed P b₀ :=
  { hb with dma := hb.dma.next hactive }

/-- A transfer keeps a bus well-formed. -/
lemma transfer (hb : b.WellFormed P b₀) (n : Nat) : (Bus.transfer n b).WellFormed P b₀ := by
  induction n generalizing b with
  | zero => exact hb
  | succ n ih =>
    unfold Bus.transfer
    split
    · rename_i hactive
      exact ih (hb.transferByte hactive)
    · exact hb

/-- The passage of time keeps a bus well-formed. -/
theorem advance {η : Type} [Host η] (hP : Display.Lasting P) (hb : b.WellFormed P b₀)
    (cycles : UInt32) (host : η) : (b.advance cycles host).bus.WellFormed P b₀ := by
  unfold Bus.advance
  simp only
  apply transfer
  exact { hb with
    sound := hb.sound.advance cycles
    joypad := hb.joypad.advance cycles host
    serial := hb.serial.advance cycles _
    timer := hb.timer.advance cycles
    display := hP.advance hb.display cycles b.videoRam b.spriteRam
    interrupts := hb.interrupts }

end WellFormed

/-- Whatever a processor does to a bus keeps it well-formed. -/
theorem closed_wellFormed (hP : Display.Lasting P) (b₀ : Bus) :
    Memory.Closed fun m : ReportingBus => m.bus.WellFormed P b₀ where
  read _ h := h
  write addr v h := h.write hP addr v
  report _ h := h
  acknowledge _ h := { h with interrupts := h.interrupts }

/-! ### Loading -/

lemma isLens_cartridge : IsLens Bus.cartridge fun c b => { b with cartridge := c } :=
  ⟨fun _ _ => rfl, fun _ _ _ => rfl, fun _ => rfl⟩

lemma isLens_interrupts : IsLens Bus.interrupts fun ic b => { b with interrupts := ic } :=
  ⟨fun _ _ => rfl, fun _ _ _ => rfl, fun _ => rfl⟩

lemma isLens_sound : IsLens Bus.sound fun sound b => { b with sound := sound } :=
  ⟨fun _ _ => rfl, fun _ _ _ => rfl, fun _ => rfl⟩

lemma isLens_joypad : IsLens Bus.joypad fun joypad b => { b with joypad := joypad } :=
  ⟨fun _ _ => rfl, fun _ _ _ => rfl, fun _ => rfl⟩

lemma isLens_serial : IsLens Bus.serial fun serial b => { b with serial := serial } :=
  ⟨fun _ _ => rfl, fun _ _ _ => rfl, fun _ => rfl⟩

lemma isLens_timer : IsLens Bus.timer fun timer b => { b with timer := timer } :=
  ⟨fun _ _ => rfl, fun _ _ _ => rfl, fun _ => rfl⟩

lemma isLens_display : IsLens Bus.display fun display b => { b with display := display } :=
  ⟨fun _ _ => rfl, fun _ _ _ => rfl, fun _ => rfl⟩

lemma isLens_dma : IsLens Bus.dma fun dma b => { b with dma := dma } :=
  ⟨fun _ _ => rfl, fun _ _ _ => rfl, fun _ => rfl⟩

/-- The first part of the saved form carries over sound, joypad, serial link and timer. -/
theorem carry?_peripheralsRecord (hs : s.WellFormed P b₀) (ht : t.WellFormed Q b₀) :
    Record.carry? peripheralsRecord s t = some { t with
      sound := s.sound, joypad := s.joypad, serial := s.serial, timer := s.timer } := by
  have hsound := Record.carry?_part isLens_sound (Sound.carry?_record hs.sound t.sound)
  have hjoypad := Record.carry?_part isLens_joypad (s := s) (t := { t with sound := s.sound })
    (Joypad.carry?_record hs.joypad ht.joypad.period)
  have hserial := Record.carry?_part isLens_serial (s := s)
    (t := { t with sound := s.sound, joypad := s.joypad })
    (Serial.carry?_record hs.serial t.serial)
  have htimer := Record.carry?_part isLens_timer (s := s)
    (t := { t with sound := s.sound, joypad := s.joypad, serial := s.serial })
    (Timer.carry?_record hs.timer t.timer)
  exact Record.carry?_trans (Record.carry?_trans (Record.carry?_trans hsound hjoypad) hserial)
    htimer

/-- The memories of the console go over. -/
lemma carry?_memoriesRecord (s t : Bus) :
    Record.carry? memoriesRecord s t = some { t with
      workRam := s.workRam, highRam := s.highRam, videoRam := s.videoRam,
      spriteRam := s.spriteRam } := by
  simp [memoriesRecord]

/-- Whether a start-up program is shown goes over between consoles with the same one. -/
lemma carry?_bootActive (hs : s.WellFormed P b₀) (ht : t.bootRom = s.bootRom) :
    Record.carry? [.flag (·.bootActive) fun v b => { b with bootActive := v && b.bootRom.isSome }]
      s t = some { t with bootActive := s.bootActive } := by
  have hboot : (s.bootActive && t.bootRom.isSome) = s.bootActive := by
    rw [ht]
    cases hactive : s.bootActive with
    | true => simp [hs.bootActive hactive]
    | false => rfl
  rw [Record.carry?_cons, Item.carry?_flag, hboot]
  rfl

/-- The second part of the saved form carries over everything else. -/
theorem carry?_systemRecord (hs : s.WellFormed Display.Acceptable b₀) (ht : t.WellFormed P b₀) :
    Record.carry? (systemRecord s.cartridge) s t = some { s with
      sound := t.sound, joypad := t.joypad, serial := t.serial, timer := t.timer } := by
  have hbootRom : t.bootRom = s.bootRom := ht.bootRom.trans hs.bootRom.symm
  have hunmapped : t.reportUnmapped = s.reportUnmapped :=
    ht.reportUnmapped.trans hs.reportUnmapped.symm
  have hinterrupts := Record.carry?_part isLens_interrupts (s := s) (t := t)
    (InterruptController.carry?_record hs.interrupts _)
  have hdisplay := Record.carry?_trans hinterrupts (Record.carry?_part isLens_display
    (Display.carry?_record hs.display _))
  have hdma := Record.carry?_trans hdisplay (Record.carry?_part isLens_dma
    (Dma.carry?_record hs.dma _))
  have hmapper := Record.carry?_trans hdma (Record.carry?_part isLens_cartridge
    (Cartridge.carry?_mapperRecord hs.cartridge ht.cartridge))
  have hflag := Record.carry?_trans hmapper (carry?_bootActive hs hbootRom)
  have hmemories := Record.carry?_trans hflag (carry?_memoriesRecord s _)
  have hram := Record.carry?_trans hmemories (Record.carry?_part isLens_cartridge
    (Cartridge.carry?_ramRecord hs.cartridge ht.cartridge))
  have hframe := Record.carry?_trans hram (Record.carry?_part isLens_display
    (Display.carry?_frameRecord s.display _))
  refine hframe.trans ?_
  simp only [hbootRom, hunmapped]

/-- A bus whose display is behind the last line is refused. -/
theorem refuses_systemRecord (hs : s.WellFormed P b₀)
    (hline : Display.lastLine < s.display.line) (t : Bus) :
    Record.Refuses (systemRecord s.cartridge) s t .displayLine := by
  have hinterrupts := Record.carry?_part isLens_interrupts (s := s) (t := t)
    (InterruptController.carry?_record hs.interrupts _)
  have hdisplay := Record.refuses_trans hinterrupts (Record.refuses_part isLens_display
    (Display.refuses_record hline _))
  exact (((((hdisplay.append _).append _).append _).append _).append _).append _

end Bus

end Handheld
