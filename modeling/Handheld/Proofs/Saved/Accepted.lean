import Handheld.Proofs.Format
import Handheld.Proofs.Saved.Machine

/-!
# Which saved states are accepted

For each component, `reads_record` says how many bytes its record takes and which of them it
accepts (`Record.Reads`), and that the component is well-formed afterwards.  Only a few fields can
be refused: counters that run past the end of their period, stages and modes that there are not, and
a transfer that is over but under way.  The records of the bus and of the machine are put together
from these (`Bus.reads_peripheralsRecord`, `Bus.reads_systemRecord`, `Machine.reads_record`).

A display that is accepted is `Display.Acceptable`, and may be one that does not stay so.
-/

namespace Handheld

open Record (Reads)

/-! ### Devices -/

/-- The clock is accepted as it is. -/
theorem Clock.reads_record : Reads (fun _ => True) Clock.record 8 fun _ => True := by
  constructor
  · intro bytes s _ hlength _
    simpa [record] using hlength
  · intro bytes s t rest _ h
    simp only [record, Record.loads_long_iff, Record.loads_nil_iff] at h
    exact ⟨trivial, h.1, trivial, h.2.2⟩

/-- The frame sequencer may not be past the end of its period. -/
theorem Sound.reads_record : Reads WellFormed record 54 fun bytes =>
    wordAt bytes 0 < sequencerCycles.toNat := by
  constructor
  · intro bytes s _ hlength hvalid
    simp [record, lengthItem, hvalid]
    omega
  · intro bytes s t rest _ h
    simp [record, lengthItem] at h
    obtain ⟨-, -, hphase, -, -, -, -, -, -, -, hlength, rfl, rfl⟩ := h
    have hphase' : UInt32.ofNat (wordAt bytes 0) < sequencerCycles :=
      (ofNat_wordAt_lt_iff bytes 0 _).mpr hphase
    exact ⟨⟨hphase', Byte.and_mask_mask _ _⟩, by omega, hphase, rfl⟩

/-- The joypad is accepted as it is. -/
theorem Joypad.reads_record (period : UInt32) :
    Reads (WellFormed period) record 6 fun _ => True := by
  constructor
  · intro bytes s _ hlength _
    simp [record]
    omega
  · intro bytes s t rest hs h
    simp [record] at h
    obtain ⟨-, -, hlength, rfl, rfl⟩ := h
    have hpos : 0 < s.period := UInt32.lt_of_le_of_lt UInt32.zero_le hs.phase
    exact ⟨⟨Byte.and_mask_mask _ _, hs.period, UInt32.mod_lt _ hpos⟩, by omega, trivial, rfl⟩

/-- The serial link may not be past the end of a bit. -/
theorem Serial.reads_record : Reads WellFormed record 7 fun bytes =>
    wordAt bytes 0 < bitCycles.toNat := by
  constructor
  · intro bytes s _ hlength hvalid
    simp [record, hvalid]
    omega
  · intro bytes s t rest _ h
    simp [record] at h
    obtain ⟨-, -, -, hlength, hphase, rfl, rfl⟩ := h
    have hphase' : UInt32.ofNat (wordAt bytes 0) < bitCycles :=
      (ofNat_wordAt_lt_iff bytes 0 _).mpr hphase
    exact ⟨⟨Byte.and_mask_mask _ _, hphase', Byte.and_mask_mask _ _⟩, by omega, hphase, rfl⟩

/-- The timer may not be past the end of the period that goes with it. -/
theorem Timer.reads_record : Reads WellFormed record 9 fun bytes =>
    wordAt bytes 2 < ({ tac := byteAt bytes 8 } : Timer).period.toNat := by
  -- Loading masks the control register, which does not matter for the period.
  have hperiod (tima tma tac : UInt8) (divider : UInt16) (phase : UInt32) :
      ({ tima, tma, tac := tac &&& 0x07, divider, phase } : Timer).period =
        ({ tac := tac } : Timer).period :=
    period_congr (toNat_mask tac)
  constructor
  · intro bytes s _ hlength hvalid
    simp [record, hperiod, hvalid]
    omega
  · intro bytes s t rest _ h
    simp [record] at h
    obtain ⟨-, -, -, -, hlength, hphase, rfl, rfl⟩ := h
    have hphase' := (ofNat_wordAt_lt_iff bytes 2 _).mpr hphase
    rw [hperiod] at hphase
    exact ⟨⟨Byte.and_mask_mask _ _, hphase'⟩, by omega, hphase, rfl⟩

/-- The transfer into sprite memory may not be past its end, nor at its end while it is under
way. -/
theorem Dma.reads_record : Reads WellFormed record 3 fun bytes =>
    byteAt bytes 2 ≤ length ∧ ¬ (byteAt bytes 1 ≠ 0 ∧ byteAt bytes 2 = length) := by
  constructor
  · rintro bytes s _ hlength ⟨hindex, hactive⟩
    have hactive' : byteAt bytes 1 = 0 ∨ ¬ byteAt bytes 2 = length := by
      simpa [Decidable.or_iff_not_not_and_not] using hactive
    simp [record, hindex, hactive']
    omega
  · intro bytes s t rest _ h
    simp [record] at h
    obtain ⟨-, -, hlength, ⟨hindex, hactive⟩, rfl, rfl⟩ := h
    have hover : ¬ (byteAt bytes 1 ≠ 0 ∧ byteAt bytes 2 = length) := by
      simpa [Decidable.or_iff_not_not_and_not] using hactive
    refine ⟨⟨hindex, fun hon h => hover ⟨?_, h⟩⟩, by omega, ⟨hindex, hover⟩, rfl⟩
    simpa using hon

/-- The interrupt controller is accepted as it is. -/
theorem InterruptController.reads_record : Reads WellFormed record 2 fun _ => True := by
  constructor
  · intro bytes s _ hlength _
    simp [record]
    omega
  · intro bytes s t rest _ h
    simp [record] at h
    obtain ⟨-, hlength, rfl, rfl⟩ := h
    exact ⟨Byte.and_mask_mask _ _, by omega, trivial, rfl⟩

/-- There are three stages of a change of the interrupt master enable flag. -/
lemma ImeDelay.exists_ofCode?_iff {v : UInt8} : (∃ d, ofCode? v = some d) ↔ v ≤ 2 := by
  rw [UInt8.le_iff_toNat_le]
  change _ ↔ v.toNat ≤ 2
  unfold ofCode?
  split
  case h_4 h₀ h₁ h₂ =>
    refine ⟨nofun, fun hle => ?_⟩
    obtain h | h | h : v.toNat = 0 ∨ v.toNat = 1 ∨ v.toNat = 2 := by omega
    · exact absurd h h₀
    · exact absurd h h₁
    · exact absurd h h₂
  all_goals exact ⟨fun _ => by omega, fun _ => ⟨_, rfl⟩⟩

/-- The processor may not be in a stage that there is not. -/
theorem Processor.reads_record (trace : Bool) : Reads (·.trace = trace) record 16 fun bytes =>
    byteAt bytes 13 ≤ 2 := by
  constructor
  · intro bytes s _ hlength hvalid
    obtain ⟨d, hd⟩ := ImeDelay.exists_ofCode?_iff.mpr hvalid
    simp [record, hd]
    omega
  · intro bytes s t rest hs h
    simp [record] at h
    obtain ⟨-, -, -, -, -, -, -, -, d, hd, -, hlength, rfl, rfl⟩ := h
    exact ⟨hs, by omega, ImeDelay.exists_ofCode?_iff.mp ⟨d, hd⟩, rfl⟩

/-! ### The display -/

/-- The display must have the mode and the line, and may not be past the end of the mode. -/
theorem Display.reads_record : Reads Acceptable record 19 fun bytes =>
    byteAt bytes 5 ≤ lastLine ∧
    ∃ mode, Mode.ofCode? (byteAt bytes 4) = some mode ∧
      wordAt bytes 0 < mode.duration.toNat := by
  constructor
  · rintro bytes s _ hlength ⟨hline, mode, hmode, hdots⟩
    simp [record, hline, hmode, hdots]
    omega
  · intro bytes s t rest _ h
    simp [record] at h
    obtain ⟨-, -, mode, hmode, -, -, hline, hdots, -, -, -, -, -, -, -, -, -, -, -, hlength, rfl,
      rfl⟩ := h
    have hdots' : UInt32.ofNat (wordAt bytes 0) < mode.duration :=
      (ofNat_wordAt_lt_iff bytes 0 _).mpr hdots
    exact ⟨⟨Byte.and_mask_mask _ _, hline, hdots'⟩, by omega, ⟨hline, mode, hmode, hdots⟩, rfl⟩

/-- The picture is accepted as it is. -/
lemma Display.reads_frameRecord : Reads Acceptable frameRecord Frame.size fun _ => True := by
  constructor
  · intro bytes s _ hlength _
    simp [frameRecord, Record.loads_field_iff, Shape.width, Shape.interpret, hlength]
  · intro bytes s t rest hs h
    simp [frameRecord, Record.loads_field_iff, Shape.width, Shape.interpret] at h
    obtain ⟨hlength, rfl, rfl⟩ := h
    exact ⟨⟨hs.select, hs.line, hs.dots⟩, hlength, trivial, rfl⟩

/-! ### The cartridge -/

/-- How many bytes the saved registers of a controller and its bank numbers take. -/
def MapperKind.width : MapperKind → Nat
  | .none => 4
  | .mbc1 => 7
  | .mbc2 => 5
  | .mbc3 => 6
  | .mbc5 => 7

namespace Mapper

variable {h : Header} {m t : Mapper}

/-- Saved bank numbers are reduced to the banks that there are, whatever the registers are. -/
lemma wellFormed_select {banks : Banks} {ramOn : Bool} {rom ram : List UInt8}
    (hm : WellFormed h ⟨banks, .none⟩) (hrom : rom.length ≤ 2) (hram : ram.length ≤ 1) :
    WellFormed h ⟨{ banks.select (ofLittleEndian rom) (ofLittleEndian ram) with ramOn := ramOn },
      .none⟩ := by
  have hromLt : ofLittleEndian rom < 65536 :=
    Nat.lt_of_lt_of_le (ofLittleEndian_lt rom) (Nat.pow_le_pow_right (by decide) hrom)
  have hramLt : ofLittleEndian ram < 256 :=
    Nat.lt_of_lt_of_le (ofLittleEndian_lt ram) (Nat.pow_le_pow_right (by decide) hram)
  exact ⟨hm.kind, hm.romCount, hm.ramCount, trivial, ⟨_, hromLt, rfl⟩, ⟨_, hramLt, rfl⟩,
    fun h => absurd rfl h⟩

/-- The controller is accepted as it is. -/
theorem reads_record (h : Header) :
    Reads (WellFormed h) (record h.kind) h.kind.width fun _ => True := by
  constructor
  · intro bytes s hs hlength _
    cases hkind : h.kind
    all_goals
      rw [hkind] at hlength
      simp [MapperKind.width] at hlength
      simp [MapperKind.width, record, banksRecord, controlsRecord, control, lastControl,
        Record.loads_field_iff, Shape.width, Shape.interpret]
      omega
  · intro bytes s t rest hs hload
    obtain ⟨banks, controls⟩ := s
    have hkind : h.kind = controls.kind := hs.kind.symm
    rw [hkind] at hload ⊢
    cases controls
    all_goals simp [Controls.kind, record, banksRecord, controlsRecord, control, lastControl,
        Record.loads_field_iff, Shape.width, Shape.interpret] at hload
    case none =>
      obtain ⟨-, hlength, rfl, rfl⟩ := hload
      have hrom : ((bytes.take 3).take 2).length ≤ 2 := List.length_take_le _ _
      have hram : ((bytes.take 3).drop 2).length ≤ 1 := by
        rw [List.length_drop, List.length_take]
        omega
      exact ⟨wellFormed_select hs hrom hram, (by omega : 4 ≤ bytes.length), trivial, rfl⟩
    case mbc1 low high mode =>
      obtain ⟨-, -, -, -, hlength, rfl, rfl⟩ := hload
      refine ⟨wellFormed_withControls hs.romCount hs.ramCount hs.kind ⟨?_, ?_, ?_⟩,
        (by omega : 7 ≤ bytes.length), trivial, rfl⟩
      all_goals exact Byte.and_mask_mask _ _
    case mbc2 bank =>
      obtain ⟨-, -, hlength, rfl, rfl⟩ := hload
      exact ⟨wellFormed_withControls hs.romCount hs.ramCount hs.kind (Byte.and_mask_mask _ _),
        (by omega : 5 ≤ bytes.length), trivial, rfl⟩
    case mbc3 rom ram =>
      obtain ⟨-, -, -, hlength, rfl, rfl⟩ := hload
      refine ⟨wellFormed_withControls hs.romCount hs.ramCount hs.kind ⟨?_, ?_⟩,
        (by omega : 6 ≤ bytes.length), trivial, rfl⟩
      all_goals exact Byte.and_mask_mask _ _
    case mbc5 low high ram =>
      obtain ⟨-, -, -, -, hlength, rfl, rfl⟩ := hload
      refine ⟨wellFormed_withControls hs.romCount hs.ramCount hs.kind ⟨?_, ?_⟩,
        (by omega : 7 ≤ bytes.length), trivial, rfl⟩
      all_goals exact Byte.and_mask_mask _ _

end Mapper

namespace Cartridge

variable {c₀ : Cartridge}

/-- The controller on a cartridge is accepted as it is. -/
lemma reads_mapperRecord (hc₀ : c₀.WellFormed c₀) :
    Reads (WellFormed · c₀) c₀.mapperRecord c₀.header.kind.width fun _ => True := by
  have hkind : c₀.mapper.kind = c₀.header.kind := hc₀.mapper.kind
  rw [mapperRecord, hkind]
  exact (Mapper.reads_record c₀.header).within isLens_mapper (WellFormed · c₀)
    (fun c hc => hc.mapper) fun m c hm hc => ⟨hc.header, hc.rom, hc.ramSize, hm⟩

/-- The RAM of a cartridge is accepted as it is. -/
lemma reads_ramRecord (c₀ : Cartridge) :
    Reads (WellFormed · c₀) ramRecord c₀.ram.size fun _ => True := by
  constructor
  · intro bytes c hc hlength _
    simp [ramRecord, hc.ramSize, hlength]
  · intro bytes c c' rest hc h
    simp [ramRecord, hc.ramSize] at h
    obtain ⟨hlength, rfl, rfl⟩ := h
    have hsize : (bytes.take c₀.ram.size).toArray.size = c₀.ram.size := by simp [hlength]
    exact ⟨⟨hc.header, hc.rom, hsize, hc.mapper⟩, hlength, trivial, rfl⟩

end Cartridge

/-! ### The bus -/

namespace Bus

variable {P : Display → Prop} {b₀ : Bus}

/-- What is accepted of sound, joypad, serial link and timer, one after another. -/
theorem reads_peripheralsRecord (P : Display → Prop) (b₀ : Bus) :
    Reads (WellFormed P · b₀) peripheralsRecord 76 fun bytes =>
      wordAt bytes 0 < Sound.sequencerCycles.toNat ∧
      wordAt bytes 60 < Serial.bitCycles.toNat ∧
      wordAt bytes 69 < ({ tac := byteAt bytes 75 } : Timer).period.toNat := by
  have hsound := Sound.reads_record.within isLens_sound (WellFormed P · b₀)
    (fun b hb => hb.sound) fun s b hs hb => { hb with sound := hs }
  have hjoypad := (Joypad.reads_record b₀.joypad.period).within isLens_joypad
    (WellFormed P · b₀) (fun b hb => hb.joypad) fun j b hj hb => { hb with joypad := hj }
  have hserial := Serial.reads_record.within isLens_serial (WellFormed P · b₀)
    (fun b hb => hb.serial) fun s b hs hb => { hb with serial := hs }
  have htimer := Timer.reads_record.within isLens_timer (WellFormed P · b₀)
    (fun b hb => hb.timer) fun t b ht hb => { hb with timer := ht }
  refine (((hsound.append hjoypad).append hserial).append htimer).congr fun bytes => ?_
  simp [and_assoc]

/-- The memories of the console are accepted as they are. -/
lemma reads_memoriesRecord (P : Display → Prop) (b₀ : Bus) :
    Reads (WellFormed P · b₀) memoriesRecord 16671 fun _ => True := by
  have hwork := Reads.vector (WellFormed P · b₀) workRam (fun ram b => { b with workRam := ram })
    fun _ _ hb => { hb with }
  have hhigh := Reads.vector (WellFormed P · b₀) highRam (fun ram b => { b with highRam := ram })
    fun _ _ hb => { hb with }
  have hvideo := Reads.vector (WellFormed P · b₀) videoRam (fun ram b => { b with videoRam := ram })
    fun _ _ hb => { hb with }
  have hsprite := Reads.vector (WellFormed P · b₀) spriteRam
    (fun ram b => { b with spriteRam := ram }) fun _ _ hb => { hb with }
  exact (((hwork.append hhigh).append hvideo).append hsprite).congr fun _ => by simp

/-- Whether the start-up program is shown is accepted, but only if there is one. -/
lemma reads_bootActive (P : Display → Prop) (b₀ : Bus) :
    Reads (WellFormed P · b₀)
      [.flag (·.bootActive) fun v b => { b with bootActive := v && b.bootRom.isSome }] 1
      fun _ => True := by
  constructor
  · intro bytes b _ hlength _
    simpa using hlength
  · intro bytes b b' rest hb h
    simp only [Record.loads_flag_iff, Record.loads_nil_iff] at h
    obtain ⟨hlength, rfl, rfl⟩ := h
    exact ⟨{ hb with bootActive := fun h => (Bool.and_eq_true_iff.mp h).2 }, hlength, trivial, rfl⟩

/-- What is accepted of everything else. -/
theorem reads_systemRecord (hb₀ : b₀.WellFormed P b₀) :
    Reads (WellFormed Display.Acceptable · b₀) (systemRecord b₀.cartridge)
      (39736 + b₀.cartridge.header.kind.width + b₀.cartridge.ram.size) fun bytes =>
      byteAt bytes 7 ≤ Display.lastLine ∧
      (∃ mode, Mode.ofCode? (byteAt bytes 6) = some mode ∧
        wordAt bytes 2 < mode.duration.toNat) ∧
      byteAt bytes 23 ≤ Dma.length ∧ ¬ (byteAt bytes 22 ≠ 0 ∧ byteAt bytes 23 = Dma.length) := by
  have hinterrupts := InterruptController.reads_record.within isLens_interrupts
    (WellFormed Display.Acceptable · b₀) (fun b hb => hb.interrupts)
    fun ic b hic hb => { hb with interrupts := hic }
  have hdisplay := Display.reads_record.within isLens_display
    (WellFormed Display.Acceptable · b₀) (fun b hb => hb.display)
    fun d b hd hb => { hb with display := hd }
  have hdma := Dma.reads_record.within isLens_dma
    (WellFormed Display.Acceptable · b₀) (fun b hb => hb.dma)
    fun d b hd hb => { hb with dma := hd }
  have hmapper := (Cartridge.reads_mapperRecord hb₀.cartridge).within isLens_cartridge
    (WellFormed Display.Acceptable · b₀) (fun b hb => hb.cartridge)
    fun c b hc hb => { hb with cartridge := hc }
  have hram := (Cartridge.reads_ramRecord b₀.cartridge).within isLens_cartridge
    (WellFormed Display.Acceptable · b₀) (fun b hb => hb.cartridge)
    fun c b hc hb => { hb with cartridge := hc }
  have hframe := Display.reads_frameRecord.within isLens_display
    (WellFormed Display.Acceptable · b₀) (fun b hb => hb.display)
    fun d b hd hb => { hb with display := hd }
  have hall := ((((((hinterrupts.append hdisplay).append hdma).append hmapper).append
    (reads_bootActive _ _)).append (reads_memoriesRecord _ _)).append hram).append hframe
  have hsize : 2 + 19 + 3 + b₀.cartridge.header.kind.width + 1 + 16671 + b₀.cartridge.ram.size +
      Frame.size = 39736 + b₀.cartridge.header.kind.width + b₀.cartridge.ram.size := by
    rw [Frame.size]
    omega
  rw [← hsize]
  refine hall.congr fun bytes => ?_
  simp [and_assoc]

end Bus

/-! ### The machine -/

/-- What is accepted of a machine, after the first bytes of a saved state. -/
theorem Machine.reads_record {P : Display → Prop} {m₀ : Machine} (hm₀ : m₀.WellFormed P m₀) :
    Reads (WellFormed Display.Acceptable · m₀) (record m₀.cartridge)
      (39836 + m₀.cartridge.header.kind.width + m₀.cartridge.ram.size) fun bytes =>
      wordAt bytes 8 < Sound.sequencerCycles.toNat ∧
      wordAt bytes 68 < Serial.bitCycles.toNat ∧
      wordAt bytes 77 < ({ tac := byteAt bytes 83 } : Timer).period.toNat ∧
      byteAt bytes 97 ≤ 2 ∧
      byteAt bytes 107 ≤ Display.lastLine ∧
      (∃ mode, Mode.ofCode? (byteAt bytes 106) = some mode ∧
        wordAt bytes 102 < mode.duration.toNat) ∧
      byteAt bytes 123 ≤ Dma.length ∧
      ¬ (byteAt bytes 122 ≠ 0 ∧ byteAt bytes 123 = Dma.length) := by
  have hclock := Clock.reads_record.within isLens_clock (WellFormed Display.Acceptable · m₀)
    (fun _ _ => trivial) fun c m _ hm => ⟨hm.bus, hm.trace⟩
  have hperipherals := (Bus.reads_peripheralsRecord Display.Acceptable m₀.bus).within isLens_bus
    (WellFormed Display.Acceptable · m₀) (fun m hm => hm.bus) fun b m hb hm => ⟨hb, hm.trace⟩
  have hcpu := (Processor.reads_record m₀.cpu.trace).within isLens_cpu
    (WellFormed Display.Acceptable · m₀) (fun m hm => hm.trace) fun p m hp hm => ⟨hm.bus, hp⟩
  have hsystem := (Bus.reads_systemRecord hm₀.bus).within isLens_bus
    (WellFormed Display.Acceptable · m₀) (fun m hm => hm.bus) fun b m hb hm => ⟨hb, hm.trace⟩
  have hall := ((hclock.append hperipherals).append hcpu).append hsystem
  have hsize : 8 + 76 + 16 + (39736 + m₀.bus.cartridge.header.kind.width +
      m₀.bus.cartridge.ram.size) =
      39836 + m₀.cartridge.header.kind.width + m₀.cartridge.ram.size := by
    unfold cartridge
    omega
  rw [← hsize]
  refine hall.congr fun bytes => ?_
  simp [and_assoc]

end Handheld
