import Handheld.Proofs.Cartridge.Selection
import Handheld.Proofs.Saved.Accepted

/-!
# Restored bank controllers

A saved state holds the registers of a bank controller and, beside them, the two bank numbers that
belong to them.  Loading masks the registers and computes the bank numbers anew, so that a restored
controller is one that a program could have brought about: `Controls.script` is such a program.  A
cartridge without a controller has no registers from which its bank numbers would follow, and it
keeps the ones in the stream: no program selects any bank but the first one there, but a saved state
does.

The main statement is `Mapper.restored_producible`.
-/

namespace Handheld

namespace Controls

open ControlHistory

variable {c : Controls} {kind : MapperKind}

/-- The writes that bring about the registers of a controller. -/
def script : Controls → ControlHistory
  | none => []
  | mbc1 low high mode => [(0x2000, low), (0x4000, high), (0x6000, mode)]
  | mbc2 bank => [(0x2100, bank)]
  | mbc3 rom ram => [(0x2000, rom), (0x4000, ram)]
  | mbc5 low high ram => [(0x2000, low), (0x3000, high), (0x4000, ram)]

/-- Each write of the script reaches the register that it is meant for, and no other one. -/
lemma foldl_put_script (hc : c.Masked) :
    c.script.foldl (fun c w => c.put w.1 w.2) (fresh c.kind) = c := by
  cases c with
  | none => rfl
  | mbc1 low high mode =>
    obtain ⟨hlow, hhigh, hmode⟩ := hc
    simp [script, put, kind, fresh, region, hlow, hhigh, hmode]
  | mbc2 bank =>
    have hbank : bank &&& 0x0F = bank := hc
    have hbit : Nat.testBit 8448 8 = true := by decide
    simp [script, put, kind, fresh, region, nibbleRegion, hbank, hbit]
  | mbc3 rom ram =>
    obtain ⟨hrom, hram⟩ := hc
    simp [script, put, kind, fresh, region, hrom, hram]
  | mbc5 low high ram =>
    obtain ⟨hhigh, hram⟩ := hc
    simp [script, put, kind, fresh, region, hhigh, hram]

/-- The script leaves the switch of the RAM alone. -/
lemma filter_enableRegion_script (c : Controls) :
    c.script.filter (fun w => enableRegion c.kind w.1) = [] := by
  cases c with
  | none => rfl
  | mbc2 bank =>
    have hbit : Nat.testBit 8448 8 = true := by decide
    simp [script, kind, enableRegion, nibbleRegion, region, hbit]
  | mbc1 | mbc3 | mbc5 => simp [script, kind, enableRegion, region]

end Controls

namespace Mapper

open ControlHistory
open Record (Loads)

variable {h : Header} {m m' n : Mapper} {bytes rest : List UInt8}

/-! ### Programs for a controller -/

/-- The writes that bring about a controller: the switch of the RAM, and then the registers. -/
def script (m : Mapper) : ControlHistory :=
  (0, if m.banks.ramOn then 0x0A else 0) :: m.controls.script

/-- The registers follow the writes. -/
lemma controls_written (m : Mapper) (ws : ControlHistory) :
    (m.written ws).controls = ws.foldl (fun c w => c.put w.1 w.2) m.controls := by
  induction ws generalizing m with
  | nil => rfl
  | cons w ws ih =>
    have hput := (m.writeControl_regions w.1 w.2).1
    calc ((m.writeControl w.1 w.2).written ws).controls
      _ = ws.foldl (fun c w => c.put w.1 w.2) (m.writeControl w.1 w.2).controls := ih _
      _ = ws.foldl (fun c w => c.put w.1 w.2) (m.controls.put w.1 w.2) := by rw [hput]

/-- A write to address zero does not reach any register. -/
lemma controls_put_zero (c : Controls) (v : UInt8) : c.put 0 v = c := by
  cases c with
  | none => rfl
  | mbc1 | mbc2 | mbc3 | mbc5 => simp [Controls.put, region, nibbleRegion]

/-- Address zero switches the RAM of every controller. -/
lemma enableRegion_zero {kind : MapperKind} (hkind : kind ≠ .none) :
    enableRegion kind 0 = true := by
  cases kind with
  | none => exact absurd rfl hkind
  | mbc1 | mbc2 | mbc3 | mbc5 => rfl

/-- The script switches the RAM. -/
lemma latest?_script (hkind : m.kind ≠ .none) :
    latest? (enableRegion m.kind) m.script = some (if m.banks.ramOn then 0x0A else 0) := by
  have hrest : m.controls.script.filter (fun w => enableRegion m.kind w.1) = [] :=
    m.controls.filter_enableRegion_script
  rw [latest?, script, List.filter_cons, if_pos (enableRegion_zero hkind), hrest]
  rfl

/-- A controller is determined by its registers and the switch of the RAM. -/
lemma WellFormed.eq_of_controls (hm : m.WellFormed h) (hn : n.WellFormed h)
    (hkind : h.kind ≠ .none) (hcontrols : m.controls = n.controls)
    (hramOn : m.banks.ramOn = n.banks.ramOn) : m = n := by
  obtain ⟨hrom, hram⟩ := hm.selected (hm.kind ▸ hkind)
  obtain ⟨hrom', hram'⟩ := hn.selected (hn.kind ▸ hkind)
  have hromCount : m.banks.romCount = n.banks.romCount := hm.romCount.trans hn.romCount.symm
  have hramCount : m.banks.ramCount = n.banks.ramCount := hm.ramCount.trans hn.ramCount.symm
  rw [hcontrols, hromCount, ← hrom'] at hrom
  rw [hcontrols, hramCount, ← hram'] at hram
  obtain ⟨⟨romCount, ramCount, rom, ram, ramOn⟩, controls⟩ := m
  obtain ⟨⟨romCount', ramCount', rom', ram', ramOn'⟩, controls'⟩ := n
  simp only at hcontrols hramOn hromCount hramCount hrom hram
  rw [hcontrols, hramOn, hromCount, hramCount, hrom, hram]

/-- A well-formed controller is what its script makes of a fresh one. -/
lemma WellFormed.written_script (hm : m.WellFormed h) (hkind : h.kind ≠ .none) :
    (fresh h).written m.script = m := by
  have htraces : ((fresh h).written m.script).Traces h m.script := traces_written h m.script
  have hkind' : m.kind ≠ .none := hm.kind ▸ hkind
  refine htraces.wellFormed.eq_of_controls hm hkind ?_ ?_
  · have hfresh : (fresh h).controls = .fresh m.controls.kind := by
      rw [← show m.kind = m.controls.kind from rfl, hm.kind]
      rfl
    rw [controls_written, script, List.foldl_cons, controls_put_zero, hfresh]
    exact Controls.foldl_put_script hm.masked
  · rw [htraces.ramOn, ← hm.kind, latest?_script hkind']
    cases m.banks.ramOn with
    | true => rfl
    | false => rfl

/-! ### Restored controllers -/

/-- A controller on a cartridge with a given header, whatever its registers and banks are. -/
structure Fits (h : Header) (m : Mapper) : Prop where
  kind : m.kind = h.kind
  romCount : m.banks.romCount = h.romBanks
  ramCount : m.banks.ramCount = h.ramBanks

/-- A fresh controller belongs to the cartridge. -/
lemma fits_fresh (h : Header) : (fresh h).Fits h :=
  ⟨(wellFormed_fresh h).kind, rfl, rfl⟩

/-- What was in a controller before does not matter for what is restored. -/
lemma Fits.loads_fresh (hm : m.Fits h) (hload : Loads (record h.kind) bytes m m' rest) :
    Loads (record h.kind) bytes (fresh h) m' rest := by
  obtain ⟨⟨romCount, ramCount, rom, ram, ramOn⟩, controls⟩ := m
  obtain ⟨title, kind, battery, romBanks, ramBanks, checksum⟩ := h
  obtain ⟨rfl, rfl, rfl⟩ := hm
  cases controls
  all_goals
    simpa [fresh, Banks.fresh, Controls.fresh, Mapper.kind, Controls.kind, record, banksRecord,
      controlsRecord, control, lastControl, Record.loads_field_iff, Shape.width, Shape.interpret,
      Banks.select, withControls, refresh] using hload

/-- What is restored belongs to the cartridge as a controller in use does. -/
lemma Fits.wellFormed_of_loads (hm : m.Fits h)
    (hload : Loads (record h.kind) bytes m m' rest) : m'.WellFormed h :=
  ((reads_record h).of_loads (wellFormed_fresh h) (hm.loads_fresh hload)).1

/-- Without a controller the stream says which bank is shown. -/
lemma Fits.romBank_of_loads (hm : m.Fits h) (hkind : h.kind = .none)
    (hload : Loads (record h.kind) bytes m m' rest) :
    m'.romBank = ofLittleEndian (bytes.take 2) % h.romBanks := by
  have hfresh := hm.loads_fresh hload
  rw [hkind] at hfresh
  simp [record, banksRecord, controlsRecord, Record.loads_field_iff, Shape.width,
    Shape.interpret] at hfresh
  obtain ⟨-, -, rfl, -⟩ := hfresh
  simp [romBank, fresh, Banks.fresh, Banks.select, List.take_take]

/-- Without a controller nothing that a program writes has an effect. -/
lemma written_of_bare (hkind : m.kind = .none) (ws : ControlHistory) : m.written ws = m := by
  have hsame (addr : UInt16) (v : UInt8) : m.writeControl addr v = m := by
    obtain ⟨banks, controls⟩ := m
    cases controls with
    | none => rfl
    | _ => cases hkind
  induction ws using List.reverseRecOn with
  | nil => rfl
  | append_singleton ws w ih => rw [written_concat, ih, hsame]

/-- Two controllers that show the same, now and after whatever a program writes to both. -/
def Alike (m n : Mapper) : Prop :=
  ∀ ws : ControlHistory,
    let m' := m.written ws
    let n' := n.written ws
    m'.kind = n'.kind ∧ m'.romBank = n'.romBank ∧ m'.ramBank = n'.ramBank ∧
      m'.ramEnabled = n'.ramEnabled

/-- Two cartridges without a controller are alike if they show the same ROM bank. -/
lemma alike_bare_iff (hm : m.kind = .none) (hn : n.kind = .none) :
    Alike m n ↔ m.romBank = n.romBank := by
  constructor
  · intro halike
    exact (halike []).2.1
  · intro hrom ws
    simp only [written_of_bare hm, written_of_bare hn]
    obtain ⟨banks, controls⟩ := m
    obtain ⟨banks', controls'⟩ := n
    cases controls with
    | none =>
      cases controls' with
      | none => exact ⟨rfl, hrom, rfl, rfl⟩
      | _ => cases hn
    | _ => cases hm

end Mapper

/-- The first bank after the fixed one is there on every cartridge. -/
lemma Header.one_mod_romBanks {image : Array UInt8} {h : Header}
    (himage : Header.parse image = .ok h) : 1 % h.romBanks = 1 := by
  have hpos : 0 < 2 ^ (image.getD 0x148 0).toNat := Nat.two_pow_pos _
  rw [(describes_of_parse himage).romBanks, Nat.pow_succ]
  exact Nat.mod_eq_of_lt (by omega)

namespace Mapper

open ControlHistory

variable {h : Header} {m m' : Mapper} {bytes rest : List UInt8}

/-- A fresh cartridge without a controller shows the first bank after the fixed one, and always
will. -/
lemma romBank_written_of_bare {image : Array UInt8} (himage : Header.parse image = .ok h)
    (hkind : h.kind = .none) (ws : ControlHistory) : ((fresh h).written ws).romBank = 1 := by
  have hrom : ((fresh h).written ws).romBank = ws.romSelect h.kind % h.romBanks :=
    (traces_written h ws).romBank_eq
  rw [hrom, hkind]
  exact Header.one_mod_romBanks himage

/-- What is restored of a controller is what some program makes of a fresh one.  Without a
controller, the ROM bank in the stream is shown, modulo the banks that there are, and no program
changes that: so it is what a program could have brought about exactly if it is the first bank after
the fixed one. -/
theorem restored_producible {image : Array UInt8} (himage : Header.parse image = .ok h)
    (hm : m.Fits h) (hload : (record h.kind).load bytes m = ⟨m', .ok rest⟩) :
    (h.kind ≠ .none → ∃ ws, m' = (fresh h).written ws) ∧
    (h.kind = .none →
      (∀ ws, (m'.written ws).romBank = ofLittleEndian (bytes.take 2) % h.romBanks) ∧
      ((∃ ws, Alike m' ((fresh h).written ws)) ↔
        ofLittleEndian (bytes.take 2) % h.romBanks = 1)) := by
  have hwell : m'.WellFormed h := hm.wellFormed_of_loads hload
  refine ⟨fun hkind => ⟨m'.script, (hwell.written_script hkind).symm⟩, fun hkind => ?_⟩
  have hrom : m'.romBank = ofLittleEndian (bytes.take 2) % h.romBanks :=
    hm.romBank_of_loads hkind hload
  have hbare : m'.kind = .none := hwell.kind.trans hkind
  have hfresh (ws : ControlHistory) : ((fresh h).written ws).kind = .none :=
    (traces_written h ws).wellFormed.kind.trans hkind
  refine ⟨fun ws => by rw [written_of_bare hbare, hrom], ?_⟩
  calc (∃ ws, Alike m' ((fresh h).written ws))
    _ ↔ ∃ ws, m'.romBank = ((fresh h).written ws).romBank :=
      exists_congr fun ws => alike_bare_iff hbare (hfresh ws)
    _ ↔ ∃ _ : ControlHistory, m'.romBank = 1 :=
      exists_congr fun ws => by rw [romBank_written_of_bare himage hkind]
    _ ↔ ofLittleEndian (bytes.take 2) % h.romBanks = 1 := by
      rw [exists_const, hrom]

/-- A stream with bank 9 and the registers of an MBC1 in front of it restores what a program makes
of a fresh MBC1, and the registers win: the bank that they ask for is the fifth one. -/
theorem restored_producible_mbc1 : ∃ h m', Header.parse (Cartridge.codedImage 0x03 0x03) = .ok h ∧
    (record h.kind).load [9, 0, 0, 1, 0x85, 0, 0] (fresh h) = ⟨m', .ok []⟩ ∧
    ∃ ws, m' = (fresh h).written ws := by
  obtain ⟨h, hparse, hkind, -, hromBanks, hramBanks⟩ := Cartridge.parse_codedImage
    (show MapperKind.ofCode? 0x03 = some (.mbc1, true) by decide)
    (show Header.ramBanks? 0x03 = some 4 by decide)
  obtain ⟨m', hload⟩ : ∃ m',
      (record h.kind).load [9, 0, 0, 1, 0x85, 0, 0] (fresh h) = ⟨m', .ok []⟩ := by
    rw [hkind]
    exact ⟨_, rfl⟩
  obtain ⟨hproducible, -⟩ := restored_producible hparse (fits_fresh h) hload
  exact ⟨h, m', hparse, hload, hproducible (by rw [hkind]; decide)⟩

/-- A stream of zeros is accepted for a cartridge without a controller, and makes it show the fixed
bank a second time, as no program could. -/
theorem restored_fixed_bank : ∃ h m', Header.parse (Cartridge.codedImage 0 0) = .ok h ∧
    h.kind = .none ∧ (record h.kind).load [0, 0, 0, 0] (fresh h) = ⟨m', .ok []⟩ ∧
    m'.romBank = 0 ∧ ¬ ∃ ws, Alike m' ((fresh h).written ws) := by
  obtain ⟨h, hparse, hkind, -, hromBanks, -⟩ := Cartridge.parse_codedImage
    (show MapperKind.ofCode? 0 = some (.none, false) by decide)
    (show Header.ramBanks? 0 = some 0 by decide)
  obtain ⟨m', hload⟩ : ∃ m', (record h.kind).load [0, 0, 0, 0] (fresh h) = ⟨m', .ok []⟩ := by
    rw [hkind]
    exact ⟨_, rfl⟩
  have hrom : m'.romBank = 0 := by
    rw [(fits_fresh h).romBank_of_loads hkind hload]
    exact Nat.zero_mod _
  have hbare : m'.kind = .none := ((fits_fresh h).wellFormed_of_loads hload).kind.trans hkind
  refine ⟨h, m', hparse, hkind, hload, hrom, ?_⟩
  rintro ⟨ws, halike⟩
  have hsame : m'.romBank = ((fresh h).written ws).romBank := (halike []).2.1
  rw [hrom, romBank_written_of_bare hparse hkind] at hsame
  cases hsame

end Mapper

end Handheld
