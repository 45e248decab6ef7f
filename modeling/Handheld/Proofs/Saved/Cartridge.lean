import Handheld.Cartridge
import Handheld.Proofs.Record
import Handheld.Word
import Mathlib.Data.List.Basic

/-!
# Cartridges in saved states

A saved state holds the registers of the bank controller and the two bank numbers, and loading
masks the former, reduces the latter, and computes them anew from the registers, if there are any.
All of this changes nothing, since the numbers are numbers of banks that there are, and what the
registers ask for at any time: this is `Mapper.WellFormed`, which holds for a fresh controller
(`Mapper.wellFormed_fresh`) and survives every write (`Mapper.WellFormed.writeControl`).  The main
statement is `Mapper.carry?_record`.

`Cartridge.WellFormed` says that a cartridge in use is still the one that was inserted, apart from
its controller and the contents of its RAM.
-/

namespace Handheld

/-- The registers of a controller hold only bits that the controller has. -/
def Controls.Masked : Controls → Prop
  | none => True
  | mbc1 low high mode => low &&& 0x7F = low ∧ high &&& 0x03 = high ∧ mode &&& 0x01 = mode
  | mbc2 bank => bank &&& 0x0F = bank
  | mbc3 rom ram => rom &&& 0x7F = rom ∧ ram &&& 0x03 = ram
  | mbc5 _ high ram => high &&& 0x01 = high ∧ ram &&& 0x0F = ram

/-- Fresh registers hold only bits that there are. -/
lemma Controls.masked_fresh (kind : MapperKind) : (fresh kind).Masked := by
  cases kind with
  | none => exact trivial
  | mbc1 => exact ⟨by decide, by decide, by decide⟩
  | mbc2 => exact (by decide : (1 : UInt8) &&& 0x0F = 1)
  | mbc3 => exact ⟨by decide, by decide⟩
  | mbc5 => exact ⟨by decide, by decide⟩

/-- A ROM bank that registers ask for fits into two bytes. -/
lemma Controls.romSelect_lt (c : Controls) : c.romSelect < 65536 := by
  cases c with
  | none => simp [romSelect]
  | mbc1 low high mode =>
    have hlow := low.toNat_lt
    have hhigh := high.toNat_lt
    have hor : low.toNat ||| high.toNat * 32 < 2 ^ 13 :=
      Nat.or_lt_two_pow (by omega) (by omega)
    simp only [romSelect]
    split <;> split <;> omega
  | mbc2 bank =>
    have := bank.toNat_lt
    simp only [romSelect, orNext]
    split <;> omega
  | mbc3 rom ram =>
    have := rom.toNat_lt
    simp only [romSelect, orNext]
    split <;> omega
  | mbc5 low high ram =>
    have := low.toNat_lt
    have := high.toNat_lt
    simp only [romSelect]
    omega

/-- A RAM bank that registers ask for fits into a byte. -/
lemma Controls.ramSelect_lt (c : Controls) : c.ramSelect < 256 := by
  cases c with
  | none | mbc2 bank => simp [ramSelect]
  | mbc1 low high mode =>
    have := high.toNat_lt
    simp only [ramSelect]
    split <;> omega
  | mbc3 rom ram | mbc5 low high ram => exact ram.toNat_lt

namespace Mapper

/-- A controller as it stays on a cartridge with a given header. -/
structure WellFormed (h : Header) (m : Mapper) : Prop where
  /-- It is the controller that the header names. -/
  kind : m.kind = h.kind
  romCount : m.banks.romCount = h.romBanks
  ramCount : m.banks.ramCount = h.ramBanks
  masked : m.controls.Masked
  /-- The visible ROM bank is one that two bytes ask for. -/
  rom : ∃ n < 65536, m.banks.rom = n % m.banks.romCount
  /-- The visible RAM bank is one that a byte asks for. -/
  ram : ∃ n < 256, m.banks.ram = n % max 1 m.banks.ramCount
  /-- The visible banks are those that the registers ask for. -/
  selected : m.kind ≠ .none → m.banks.rom = m.controls.romSelect % m.banks.romCount ∧
    m.banks.ram = m.controls.ramSelect % max 1 m.banks.ramCount

variable {h : Header} {m s t : Mapper}

/-- A fresh controller shows the banks that its registers ask for. -/
theorem wellFormed_fresh (h : Header) : (fresh h).WellFormed h := by
  obtain ⟨title, kind, battery, romBanks, ramBanks, checksum⟩ := h
  have hram : 0 = 0 % max 1 ramBanks := (Nat.zero_mod _).symm
  refine ⟨?_, rfl, rfl, ?_, ⟨1, by decide, rfl⟩, ⟨0, by decide, hram⟩, fun _ => ⟨?_, ?_⟩⟩
  · cases kind <;> rfl
  · exact Controls.masked_fresh kind
  · cases kind <;> rfl
  · cases kind <;> exact hram

/-- Registers select the banks that they ask for, among those that there are. -/
lemma wellFormed_withControls {c : Controls} (hrom : m.banks.romCount = h.romBanks)
    (hram : m.banks.ramCount = h.ramBanks) (hkind : c.kind = h.kind) (hc : c.Masked) :
    (m.withControls c).WellFormed h :=
  ⟨hkind, hrom, hram, hc, ⟨_, c.romSelect_lt, rfl⟩, ⟨_, c.ramSelect_lt, rfl⟩, fun _ => ⟨rfl, rfl⟩⟩

namespace WellFormed

/-- Switching the RAM on or off selects no other banks. -/
lemma latch (hm : m.WellFormed h) (v : UInt8) : (m.latch v).WellFormed h :=
  ⟨hm.kind, hm.romCount, hm.ramCount, hm.masked, hm.rom, hm.ram, hm.selected⟩

/-- New registers select the banks that they ask for. -/
lemma withControls (hm : m.WellFormed h) {c : Controls} (hkind : c.kind = m.kind)
    (hc : c.Masked) : (m.withControls c).WellFormed h :=
  wellFormed_withControls hm.romCount hm.ramCount (hkind.trans hm.kind) hc

/-- A write of a program keeps a controller well-formed. -/
theorem writeControl (hm : m.WellFormed h) (addr : UInt16) (v : UInt8) :
    (m.writeControl addr v).WellFormed h := by
  obtain ⟨banks, controls⟩ := m
  have hmasked := hm.masked
  cases controls with
  | none => exact hm
  | mbc1 low high mode =>
    obtain ⟨hlow, hhigh, hmode⟩ := hmasked
    simp only [Mapper.writeControl]
    split
    · exact hm.latch v
    split
    · exact hm.withControls rfl ⟨by simp, hhigh, hmode⟩
    split
    · exact hm.withControls rfl ⟨hlow, by simp, hmode⟩
    · exact hm.withControls rfl ⟨hlow, hhigh, by simp⟩
  | mbc2 bank =>
    simp only [Mapper.writeControl]
    split
    · exact hm
    split
    · exact hm.withControls rfl (by simp [Controls.Masked])
    · exact hm.latch v
  | mbc3 rom ram =>
    obtain ⟨hrom, hram⟩ := hmasked
    simp only [Mapper.writeControl]
    split
    · exact hm.latch v
    split
    · exact hm.withControls rfl ⟨by simp, hram⟩
    split
    · exact hm.withControls rfl ⟨hrom, by simp⟩
    · exact hm
  | mbc5 low high ram =>
    obtain ⟨hhigh, hram⟩ := hmasked
    simp only [Mapper.writeControl]
    split
    · exact hm.latch v
    split
    · exact hm.withControls rfl ⟨hhigh, hram⟩
    split
    · exact hm.withControls rfl ⟨by simp, hram⟩
    split
    · exact hm.withControls rfl ⟨hhigh, by simp⟩
    · exact hm

end WellFormed

/-! ### Loading -/

/-- The saved bank numbers go over as they are, if they are bank numbers of the cartridge. -/
lemma carry?_banksRecord (hs : s.WellFormed h) (ht : t.WellFormed h) :
    Record.carry? banksRecord s t = some { t with banks := s.banks } := by
  obtain ⟨rom, hromLt, hshownRom⟩ := hs.rom
  obtain ⟨ram, hramLt, hshownRam⟩ := hs.ram
  have hrom : s.banks.rom < 65536 := by
    rw [hshownRom]
    exact Nat.lt_of_le_of_lt (Nat.mod_le _ _) hromLt
  have hram : s.banks.ram < 256 := by
    rw [hshownRam]
    exact Nat.lt_of_le_of_lt (Nat.mod_le _ _) hramLt
  have hmodRom : s.banks.rom % t.banks.romCount = s.banks.rom := by
    rw [ht.romCount, ← hs.romCount, hshownRom, Nat.mod_mod]
  have hmodRam : s.banks.ram % max 1 t.banks.ramCount = s.banks.ram := by
    rw [ht.ramCount, ← hs.ramCount, hshownRam, Nat.mod_mod]
  have hselect : t.banks.select s.banks.rom s.banks.ram =
      { s.banks with ramOn := t.banks.ramOn } := by
    rw [Banks.select, hmodRom, hmodRam, ht.romCount, ht.ramCount, ← hs.romCount, ← hs.ramCount]
  have htake : (littleEndian 2 s.banks.rom ++ littleEndian 1 s.banks.ram).take 2 =
      littleEndian 2 s.banks.rom := List.take_left' (length_littleEndian _ _)
  have hdrop : (littleEndian 2 s.banks.rom ++ littleEndian 1 s.banks.ram).drop 2 =
      littleEndian 1 s.banks.ram := List.drop_left' (length_littleEndian _ _)
  simp only [banksRecord, Record.carry?_cons]
  rw [Item.carry?, if_pos (by simp [Datum.shape])]
  simp [Except.toOption, htake, hdrop, ofLittleEndian_littleEndian, Nat.mod_eq_of_lt hrom,
    Nat.mod_eq_of_lt hram, hselect]

/-- The registers of a well-formed controller select the banks that are selected already. -/
lemma WellFormed.withControls_self (hm : m.WellFormed h) (hkind : m.kind ≠ .none)
    (ht : t.banks = m.banks) : t.withControls m.controls = m := by
  obtain ⟨hrom, hram⟩ := hm.selected hkind
  obtain ⟨⟨romCount, ramCount, rom, ram, ramOn⟩, controls⟩ := m
  obtain rfl : rom = controls.romSelect % romCount := hrom
  obtain rfl : ram = controls.ramSelect % max 1 ramCount := hram
  simp only [Mapper.withControls, Mapper.refresh, Banks.select, ht]

/-- The saved registers go over as they are, and select the banks that went over before. -/
lemma carry?_controlsRecord (hs : s.WellFormed h) (hkind : t.kind = s.kind)
    (hbanks : t.banks = s.banks) : Record.carry? (controlsRecord s.kind) s t = some s := by
  have hself (hcontrols : s.kind ≠ .none) := hs.withControls_self hcontrols hbanks
  have hmasked := hs.masked
  obtain ⟨banks, controls⟩ := s
  obtain ⟨banks', controls'⟩ := t
  obtain rfl : banks' = banks := hbanks
  cases controls with
  | none =>
    cases controls' with
    | none => rfl
    | _ => cases hkind
  | mbc1 low high mode =>
    obtain ⟨hlow, hhigh, hmode⟩ := hmasked
    cases controls' with
    | mbc1 low' high' mode' =>
      simpa [controlsRecord, kind, Controls.kind, control, lastControl, hlow, hhigh, hmode,
        withControls] using hself nofun
    | _ => cases hkind
  | mbc2 bank =>
    have hbank : bank &&& 0x0F = bank := hmasked
    cases controls' with
    | mbc2 bank' =>
      simpa [controlsRecord, kind, Controls.kind, lastControl, hbank, withControls] using
        hself nofun
    | _ => cases hkind
  | mbc3 rom ram =>
    obtain ⟨hrom, hram⟩ := hmasked
    cases controls' with
    | mbc3 rom' ram' =>
      simpa [controlsRecord, kind, Controls.kind, control, lastControl, hrom, hram,
        withControls] using hself nofun
    | _ => cases hkind
  | mbc5 low high ram =>
    obtain ⟨hhigh, hram⟩ := hmasked
    cases controls' with
    | mbc5 low' high' ram' =>
      simpa [controlsRecord, kind, Controls.kind, control, lastControl, hhigh, hram,
        withControls] using hself nofun
    | _ => cases hkind

/-- A well-formed controller goes over completely to another one on the same cartridge. -/
theorem carry?_record (hs : s.WellFormed h) (ht : t.WellFormed h) :
    Record.carry? (record s.kind) s t = some s := by
  rw [record, Record.carry?_append, carry?_banksRecord hs ht]
  exact carry?_controlsRecord hs (ht.kind.trans hs.kind.symm) rfl

end Mapper

namespace Cartridge

/-- A cartridge in use, compared with the one that was inserted. -/
structure WellFormed (c c₀ : Cartridge) : Prop where
  header : c.header = c₀.header
  rom : c.rom = c₀.rom
  /-- The RAM has not changed its size. -/
  ramSize : c.ram.size = c₀.ram.size
  mapper : c.mapper.WellFormed c₀.header

variable {c₀ c s t : Cartridge}

/-- A cartridge that has just been inserted is well-formed, whatever its RAM is. -/
theorem wellFormed_fresh (header : Header) (image ram : Array UInt8) :
    WellFormed ⟨header, image, ram, .fresh header⟩ ⟨header, image, ram, .fresh header⟩ :=
  ⟨rfl, rfl, rfl, Mapper.wellFormed_fresh header⟩

namespace WellFormed

/-- A write to a ROM address reaches the controller only. -/
theorem writeControl (hc : c.WellFormed c₀) (addr : UInt16) (v : UInt8) :
    (c.writeControl addr v).WellFormed c₀ :=
  ⟨hc.header, hc.rom, hc.ramSize, hc.mapper.writeControl addr v⟩

/-- A write to a RAM address replaces a byte of the RAM, or none. -/
lemma writeRam (hc : c.WellFormed c₀) (addr : UInt16) (v : UInt8) :
    (c.writeRam addr v).WellFormed c₀ := by
  have hsize : (c.mapper.writeRam c.ram addr v).size = c.ram.size := by
    unfold Mapper.writeRam
    split
    · exact Array.size_setIfInBounds
    · exact Array.size_setIfInBounds
  unfold Cartridge.writeRam
  split
  · exact ⟨hc.header, hc.rom, hsize.trans hc.ramSize, hc.mapper⟩
  · exact hc

/-- New contents of the RAM of the same size. -/
lemma withRam (hc : c.WellFormed c₀) {ram : Array UInt8} (h : ram.size = c.ram.size) :
    ({ c with ram := ram } : Cartridge).WellFormed c₀ :=
  ⟨hc.header, hc.rom, h.trans hc.ramSize, hc.mapper⟩

end WellFormed

/-- The controller part of the cartridge. -/
lemma isLens_mapper : IsLens Cartridge.mapper fun m c => { c with mapper := m } :=
  ⟨fun _ _ => rfl, fun _ _ _ => rfl, fun _ => rfl⟩

/-- The saved controller goes over to the same cartridge. -/
lemma carry?_mapperRecord (hs : s.WellFormed c₀) (ht : t.WellFormed c₀) :
    Record.carry? s.mapperRecord s t = some { t with mapper := s.mapper } := by
  rw [mapperRecord, Record.carry?_within isLens_mapper, Mapper.carry?_record hs.mapper ht.mapper]
  rfl

/-- The saved RAM goes over to the same cartridge, and completes it. -/
lemma carry?_ramRecord (hs : s.WellFormed c₀) (ht : t.WellFormed c₀) :
    Record.carry? ramRecord s { t with mapper := s.mapper } = some s := by
  have hsize : t.ram.size = s.ram.size := ht.ramSize.trans hs.ramSize.symm
  obtain ⟨header, rom, ram, mapper⟩ := s
  obtain rfl : header = t.header := hs.header.trans ht.header.symm
  obtain rfl : rom = t.rom := hs.rom.trans ht.rom.symm
  exact Option.bind_eq_some_iff.mpr ⟨_, Item.carry?_array hsize, rfl⟩

/-! ### Small cartridges -/

/-- An image of two banks is accepted if its checksum is right and there are such a controller and
such RAM as its codes say. -/
lemma parse_of_codes {image : Array UInt8} {kind : MapperKind} {battery : Bool} {ramBanks : Nat}
    (hsize : image.size = 0x8000) (hchecksum : image.getD 0x14D 0 = Header.checksumOf image)
    (hcolor : image.getD 0x143 0 = 0)
    (htype : MapperKind.ofCode? (image.getD 0x147 0) = some (kind, battery))
    (hrom : image.getD 0x148 0 = 0)
    (hram : Header.ramBanks? (image.getD 0x149 0) = some ramBanks) :
    Header.parse image = .ok {
      title := Header.titleOf image, kind := kind, battery := battery, romBanks := 2
      ramBanks := if kind = .mbc2 then 1 else ramBanks
      checksum := Header.checksumOf image } := by
  unfold Header.parse
  simp only [hsize, hchecksum, hcolor, htype, hrom, hram]
  simp [romBankSize, Header.romBanks?, pure, Except.pure]

/-- Every byte of an image in which one byte was replaced. -/
lemma getD_setIfInBounds (image : Array UInt8) {i : Nat} (hi : i < image.size) (v : UInt8)
    (j : Nat) : (image.setIfInBounds i v).getD j 0 = if j = i then v else image.getD j 0 := by
  simp only [Array.getD_eq_getD_getElem?, Array.getElem?_setIfInBounds]
  by_cases hj : i = j
  · simp [← hj, hi]
  · simp [hj, Ne.symm hj]

/-- Every byte of an image of zeros. -/
lemma getD_replicate (n j : Nat) : (Array.replicate n (0 : UInt8)).getD j 0 = 0 := by
  rw [Array.getD_eq_getD_getElem?, Array.getElem?_replicate]
  split <;> rfl

/-- An image with two banks, all zeros but for the checksum. -/
def plainImage : Array UInt8 := (Array.replicate 0x8000 0).setIfInBounds 0x14D 0xE7

/-- The image has two banks. -/
lemma size_plainImage : plainImage.size = 0x8000 := by
  rw [plainImage, Array.size_setIfInBounds, Array.size_replicate]

/-- The image is all zeros but for the checksum. -/
lemma getD_plainImage (i : Nat) : plainImage.getD i 0 = if i = 0x14D then 0xE7 else 0 := by
  rw [plainImage, getD_setIfInBounds _ (by simp), getD_replicate]

/-- The checksum in the image is right. -/
lemma checksumOf_plainImage : Header.checksumOf plainImage = 0xE7 := by
  have hzero : ∀ sum : UInt8, ∀ i ∈ List.range' 0x134 25,
      sum - plainImage.getD i 0 - 1 = sum - 0 - 1 := by
    intro sum i hi
    have hne : i ≠ 0x14D := by
      simp only [List.mem_range'_1] at hi
      omega
    rw [getD_plainImage, if_neg hne]
  rw [Header.checksumOf, List.foldl_ext _ _ _ hzero]
  rfl

/-- The image is accepted. -/
lemma parse_plainImage : ∃ h, Header.parse plainImage = .ok h := by
  have hchecksum : plainImage.getD 0x14D 0 = Header.checksumOf plainImage := by
    rw [getD_plainImage, checksumOf_plainImage]
    rfl
  have htype : MapperKind.ofCode? (plainImage.getD 0x147 0) = some (.none, false) := by
    rw [getD_plainImage]
    rfl
  have hram : Header.ramBanks? (plainImage.getD 0x149 0) = some 0 := by
    rw [getD_plainImage]
    rfl
  exact ⟨_, parse_of_codes size_plainImage hchecksum (getD_plainImage _) htype
    (getD_plainImage _) hram⟩

/-- An image with two banks, all zeros but for the codes of its controller and its RAM and for the
checksum. -/
def codedImage (typeCode ramCode : UInt8) : Array UInt8 :=
  (((Array.replicate 0x8000 0).setIfInBounds 0x147 typeCode).setIfInBounds
    0x149 ramCode).setIfInBounds 0x14D (0xE7 - typeCode - ramCode)

/-- The image has these bytes. -/
lemma getD_codedImage (typeCode ramCode : UInt8) (i : Nat) :
    (codedImage typeCode ramCode).getD i 0 =
      if i = 0x14D then 0xE7 - typeCode - ramCode
      else if i = 0x149 then ramCode else if i = 0x147 then typeCode else 0 := by
  rw [codedImage, getD_setIfInBounds _ (by simp), getD_setIfInBounds _ (by simp),
    getD_setIfInBounds _ (by simp), getD_replicate]

/-- The checksum covers the codes. -/
lemma checksumOf_codedImage (typeCode ramCode : UInt8) :
    Header.checksumOf (codedImage typeCode ramCode) = 0xE7 - typeCode - ramCode := by
  have hbytes : ∀ sum : UInt8, ∀ i ∈ List.range' 0x134 25,
      sum - (codedImage typeCode ramCode).getD i 0 - 1 =
        sum - (if i = 0x149 then ramCode else if i = 0x147 then typeCode else 0) - 1 := by
    intro sum i hi
    have hne : i ≠ 0x14D := by
      simp only [List.mem_range'_1] at hi
      omega
    rw [getD_codedImage, if_neg hne]
  rw [Header.checksumOf, List.foldl_ext _ _ _ hbytes]
  simp only [List.range', List.foldl_cons, List.foldl_nil, Nat.reduceAdd, Nat.reduceEqDiff, if_true,
    if_false]
  grind

/-- The image is accepted if there are such a controller and such RAM. -/
lemma parse_codedImage {typeCode ramCode : UInt8} {kind : MapperKind} {battery : Bool}
    {ramBanks : Nat} (htype : MapperKind.ofCode? typeCode = some (kind, battery))
    (hram : Header.ramBanks? ramCode = some ramBanks) :
    ∃ h, Header.parse (codedImage typeCode ramCode) = .ok h ∧ h.kind = kind ∧
      h.battery = battery ∧ h.romBanks = 2 ∧
      h.ramBanks = if kind = .mbc2 then 1 else ramBanks := by
  have hsize : (codedImage typeCode ramCode).size = 0x8000 := by simp [codedImage]
  have hchecksum : (codedImage typeCode ramCode).getD 0x14D 0 =
      Header.checksumOf (codedImage typeCode ramCode) := by
    rw [getD_codedImage, checksumOf_codedImage]
    rfl
  exact ⟨_, parse_of_codes hsize hchecksum (getD_codedImage _ _ _)
    (by rw [getD_codedImage]; exact htype) (getD_codedImage _ _ _)
    (by rw [getD_codedImage]; exact hram), rfl, rfl, rfl, rfl⟩

end Cartridge

end Handheld
