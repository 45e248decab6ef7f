import Handheld.Proofs.Cartridge.Selection

/-!
# Banked RAM

The RAM window shows one bank at a time.  For a program the RAM is nevertheless a store of cells: a
`RamCell` is a bank together with a place in it, and what is read from a cell is what was written to
it last while the RAM was on, however often other banks were selected in the meantime.

A `CartridgeWrite` is a write to a ROM address or to a RAM address, and `RamHistory.of` sorts the
writes of a program into those that steer the controller and those that reach a cell.  The main
statement is `Cartridge.banked_store`; it follows from what one write preserves,
`Cartridge.Stores.apply`.
-/

namespace Handheld

/-- A write of a program to its cartridge. -/
inductive CartridgeWrite
  /-- A write to a ROM address, which steers the controller. -/
  | control (addr : UInt16) (v : UInt8)
  /-- A write to a RAM address. -/
  | ram (addr : UInt16) (v : UInt8)

/-- A bank of RAM, and a place in the bank. -/
abbrev RamCell := Nat × Nat

namespace RamCell

/-- The place of a cell in the whole RAM. -/
def place (cell : RamCell) : Nat :=
  cell.1 * ramBankSize + cell.2

/-- The cells that RAM with a number of banks has. -/
def Within (banks : Nat) (cell : RamCell) : Prop :=
  cell.1 < banks ∧ cell.2 < ramBankSize

variable {banks : Nat} {c d : RamCell}

/-- A cell lies in the RAM that has it. -/
lemma Within.place_lt (hc : c.Within banks) : c.place < banks * ramBankSize := by
  obtain ⟨hbank, hplace⟩ := hc
  have hnext : (c.1 + 1) * ramBankSize ≤ banks * ramBankSize := Nat.mul_le_mul_right _ hbank
  rw [Nat.succ_mul] at hnext
  unfold place
  omega

/-- Different cells lie in different places. -/
lemma Within.place_inj (hc : c.Within banks) (hd : d.Within banks) :
    c.place = d.place ↔ c = d := by
  obtain ⟨bank, i⟩ := c
  obtain ⟨bank', i'⟩ := d
  have hi : i < 0x2000 := hc.2
  have hi' : i' < 0x2000 := hd.2
  simp only [place, ramBankSize, Prod.mk.injEq]
  omega

end RamCell

namespace ControlHistory

/-- Whether the RAM is on after a history. -/
def ramOn (ws : ControlHistory) (kind : MapperKind) : Bool :=
  kind == .none || (latest? (enableRegion kind) ws).any (·.toNat % 16 == 10)

/-- The cell that a RAM address shows after a history: an MBC2 shows the same 512 cells over and
over, and other controllers show a whole bank. -/
def cell (ws : ControlHistory) (h : Header) (addr : UInt16) : RamCell :=
  if h.kind = .mbc2 then (0, addr.toNat % Mapper.mbc2Cells)
  else (ws.ramSelect h.kind % max 1 h.ramBanks, addr.toNat % ramBankSize)

/-- There are only such cells as there are banks. -/
lemma within_cell (ws : ControlHistory) {h : Header} (hram : 1 ≤ h.ramBanks) (addr : UInt16) :
    (ws.cell h addr).Within h.ramBanks := by
  unfold cell
  split
  · exact ⟨hram, Nat.lt_of_lt_of_le (Nat.mod_lt _ (by decide)) (by decide : 512 ≤ ramBankSize)⟩
  · refine ⟨?_, Nat.mod_lt _ (by decide)⟩
    rw [Nat.max_eq_right hram]
    exact Nat.mod_lt _ hram

end ControlHistory

/-- What a program has done to its cartridge so far. -/
structure RamHistory where
  controls : ControlHistory
  /-- The cells that were written while the RAM was on, and the values, the first write first. -/
  stores : List (RamCell × UInt8)

namespace RamHistory

/-- One more write. -/
def next (h : Header) (r : RamHistory) : CartridgeWrite → RamHistory
  | .control addr v => { r with controls := r.controls ++ [(addr, v)] }
  | .ram addr v =>
    if r.controls.ramOn h.kind then
      { r with stores := r.stores ++ [(r.controls.cell h addr, v)] }
    else r

/-- The history of a program. -/
def of (h : Header) (ws : List CartridgeWrite) : RamHistory :=
  ws.foldl (next h) ⟨[], []⟩

/-- The last write comes last. -/
lemma of_concat (h : Header) (ws : List CartridgeWrite) (w : CartridgeWrite) :
    of h (ws ++ [w]) = (of h ws).next h w :=
  List.foldl_concat _ _ _ _

/-- The value that a program has stored in a cell, and zero before that. -/
def stored (r : RamHistory) (cell : RamCell) : UInt8 :=
  (latest? (· == cell) r.stores).getD 0

/-- A store replaces the value of its cell, and keeps all others. -/
lemma stored_concat (controls : ControlHistory) (stores : List (RamCell × UInt8))
    (cell d : RamCell) (v : UInt8) :
    stored ⟨controls, stores ++ [(cell, v)]⟩ d =
      if cell = d then v else stored ⟨controls, stores⟩ d := by
  unfold stored
  rw [latest?_concat]
  by_cases hd : cell = d
  · simp [hd]
  · simp [hd]

end RamHistory

/-- What a cell keeps of a value: an MBC2 has four bits for it. -/
def MapperKind.keep (kind : MapperKind) (v : UInt8) : UInt8 :=
  if kind = .mbc2 then v &&& 0x0F else v

/-- What a cell with a value reads as: the bits that an MBC2 does not have are ones. -/
def MapperKind.seen (kind : MapperKind) (v : UInt8) : UInt8 :=
  if kind = .mbc2 then 0xF0 ||| (v &&& 0x0F) else v

namespace Mapper

variable {h : Header} {ws : ControlHistory} {m : Mapper}

/-- The RAM is visible if it is on. -/
lemma Traces.ramEnabled_eq (hm : m.Traces h ws) : m.ramEnabled = ws.ramOn h.kind := by
  rw [Bool.eq_iff_iff, hm.ramEnabled_iff]
  simp [ControlHistory.ramOn, Option.any_eq_true]

/-- An address shows the place of its cell. -/
lemma Traces.ramOffset_eq (hm : m.Traces h ws) (addr : UInt16) :
    m.ramOffset addr = (ws.cell h addr).place := by
  have hbank := hm.ramBank_eq
  have hkind := hm.wellFormed.kind
  obtain ⟨banks, controls⟩ := m
  cases controls with
  | mbc2 bank =>
    have hmbc2 : h.kind = .mbc2 := hkind.symm
    simp [ramOffset, ControlHistory.cell, hmbc2, RamCell.place]
  | none | mbc1 | mbc3 | mbc5 =>
    have hother : h.kind ≠ .mbc2 := by
      rw [← hkind]
      nofun
    simp only [ramOffset, ControlHistory.cell, if_neg hother, RamCell.place, hbank]

end Mapper

namespace Cartridge

/-- A write of a program. -/
def apply (c : Cartridge) : CartridgeWrite → Cartridge
  | .control addr v => c.writeControl addr v
  | .ram addr v => c.writeRam addr v

/-- What a program has made of a cartridge. -/
def after (c : Cartridge) (ws : List CartridgeWrite) : Cartridge :=
  ws.foldl apply c

/-- The last write comes last. -/
lemma after_concat (c : Cartridge) (ws : List CartridgeWrite) (w : CartridgeWrite) :
    c.after (ws ++ [w]) = (c.after ws).apply w :=
  List.foldl_concat _ _ _ _

/-- A cartridge after a history: every cell keeps what was stored in it. -/
structure Stores (h : Header) (r : RamHistory) (c : Cartridge) : Prop where
  mapper : c.mapper.Traces h r.controls
  ramSize : c.ram.size = h.ramSize
  contents : ∀ cell : RamCell, cell.Within h.ramBanks →
    c.ram[cell.place]? = some (h.kind.keep (r.stored cell))

variable {h : Header} {r : RamHistory} {c : Cartridge}

/-- A fresh cartridge has no history. -/
lemma stores_fresh (h : Header) (image : Array UInt8) :
    Stores h ⟨[], []⟩ ⟨h, image, Array.replicate h.ramSize 0, .fresh h⟩ := by
  refine ⟨Mapper.traces_fresh h, Array.size_replicate, fun cell hcell => ?_⟩
  have hzero : h.kind.keep 0 = 0 := by
    unfold MapperKind.keep
    split
    · rfl
    · rfl
  have hplace : cell.place < h.ramSize := hcell.place_lt
  rw [Array.getElem?_replicate, if_pos hplace]
  exact congrArg some hzero.symm

namespace Stores

/-- The RAM window shows RAM if it is on. -/
lemma ramVisible_eq (hc : c.Stores h r) (hram : 1 ≤ h.ramBanks) :
    c.ramVisible = r.controls.ramOn h.kind := by
  have hsize : 0 < c.ram.size := by
    rw [hc.ramSize]
    exact Nat.mul_pos hram (by decide)
  have hempty : c.ram.isEmpty = false := by
    rw [Array.isEmpty_eq_false_iff_exists_mem]
    exact ⟨c.ram[0], Array.getElem_mem _⟩
  rw [ramVisible, hc.mapper.ramEnabled_eq, hempty, Bool.not_false, Bool.and_true]

/-- No address leads out of the RAM. -/
lemma ramOffset_lt (hc : c.Stores h r) (hram : 1 ≤ h.ramBanks) (addr : UInt16) :
    c.mapper.ramOffset addr < c.ram.size := by
  rw [hc.mapper.ramOffset_eq, hc.ramSize]
  exact (r.controls.within_cell hram addr).place_lt

/-- A read shows what its cell keeps. -/
lemma readRam_eq (hc : c.Stores h r) (hram : 1 ≤ h.ramBanks)
    (hon : r.controls.ramOn h.kind = true) (addr : UInt16) :
    c.readRam addr = h.kind.seen (r.stored (r.controls.cell h addr)) := by
  have hkept := hc.contents _ (r.controls.within_cell hram addr)
  have hkind := hc.mapper.wellFormed.kind
  rw [← hc.mapper.ramOffset_eq] at hkept
  rw [readRam, if_pos ((hc.ramVisible_eq hram).trans hon)]
  obtain ⟨header, rom, ram, banks, controls⟩ := c
  cases controls with
  | mbc2 bank =>
    have hmbc2 : h.kind = .mbc2 := hkind.symm
    simp only [MapperKind.keep, MapperKind.seen, hmbc2, if_true] at hkept ⊢
    simp only [Mapper.readRam, Array.getD_eq_getD_getElem?, hkept, Option.getD_some,
      UInt8.and_assoc, UInt8.and_self]
  | none | mbc1 | mbc3 | mbc5 =>
    have hother : h.kind ≠ .mbc2 := by
      rw [← hkind]
      nofun
    simp only [MapperKind.keep, MapperKind.seen, if_neg hother] at hkept ⊢
    simp only [Mapper.readRam, Array.getD_eq_getD_getElem?, hkept, Option.getD_some]

/-- A write to the controller changes no cell. -/
lemma writeControl (hc : c.Stores h r) (addr : UInt16) (v : UInt8) :
    (c.writeControl addr v).Stores h { r with controls := r.controls ++ [(addr, v)] } :=
  ⟨hc.mapper.writeControl addr v, hc.ramSize, hc.contents⟩

/-- A write to the RAM replaces what its place holds by what a cell keeps. -/
lemma writeRam_eq (hc : c.Stores h r) (hram : 1 ≤ h.ramBanks)
    (hon : r.controls.ramOn h.kind = true) (addr : UInt16) (v : UInt8) :
    c.writeRam addr v =
      { c with ram := c.ram.setIfInBounds (r.controls.cell h addr).place (h.kind.keep v) } := by
  have hkind := hc.mapper.wellFormed.kind
  rw [writeRam, if_pos ((hc.ramVisible_eq hram).trans hon), ← hc.mapper.ramOffset_eq]
  obtain ⟨header, rom, ram, banks, controls⟩ := c
  cases controls with
  | mbc2 bank =>
    have hmbc2 : h.kind = .mbc2 := hkind.symm
    simp only [Mapper.writeRam, MapperKind.keep, hmbc2, if_true]
  | none | mbc1 | mbc3 | mbc5 =>
    have hother : h.kind ≠ .mbc2 := by
      rw [← hkind]
      nofun
    simp only [Mapper.writeRam, MapperKind.keep, if_neg hother]

/-- A write to the RAM stores its value in one cell. -/
lemma store (hc : c.Stores h r) (hram : 1 ≤ h.ramBanks)
    (hon : r.controls.ramOn h.kind = true) (addr : UInt16) (v : UInt8) :
    (c.writeRam addr v).Stores h
      { r with stores := r.stores ++ [(r.controls.cell h addr, v)] } := by
  rw [hc.writeRam_eq hram hon]
  have hcell := r.controls.within_cell hram addr
  refine ⟨hc.mapper, Array.size_setIfInBounds.trans hc.ramSize, fun d hd => ?_⟩
  rw [RamHistory.stored_concat, Array.getElem?_setIfInBounds]
  have hplace : (r.controls.cell h addr).place < c.ram.size := by
    rw [hc.ramSize]
    exact hcell.place_lt
  by_cases hsame : r.controls.cell h addr = d
  · rw [hsame] at hplace ⊢
    rw [if_pos rfl, if_pos hplace, if_pos rfl]
  · rw [if_neg (mt (hcell.place_inj hd).mp hsame), if_neg hsame]
    exact hc.contents d hd

/-- A write becomes part of the history. -/
theorem apply (hc : c.Stores h r) (hram : 1 ≤ h.ramBanks) (w : CartridgeWrite) :
    (c.apply w).Stores h (r.next h w) := by
  cases w with
  | control addr v => exact hc.writeControl addr v
  | ram addr v =>
    by_cases hon : r.controls.ramOn h.kind
    · rw [RamHistory.next, if_pos hon]
      exact hc.store hram hon addr v
    · have hhidden : ¬ c.ramVisible := by
        rw [hc.ramVisible_eq hram]
        exact hon
      rw [RamHistory.next, if_neg hon, Cartridge.apply, writeRam, if_neg hhidden]
      exact hc

end Stores

/-- A cartridge keeps what a program has stored. -/
lemma stores_after {image : Array UInt8} {c₀ : Cartridge} (himage : ofImage image = .ok c₀)
    (hram : 1 ≤ c₀.header.ramBanks) (ws : List CartridgeWrite) :
    (c₀.after ws).Stores c₀.header (RamHistory.of c₀.header ws) := by
  induction ws using List.reverseRecOn with
  | nil =>
    cases hparse : Header.parse image with
    | error e =>
      rw [ofImage, hparse] at himage
      cases himage
    | ok h =>
      rw [ofImage_of_parse hparse] at himage
      cases himage
      exact stores_fresh h image
  | append_singleton ws w ih =>
    rw [after_concat, RamHistory.of_concat]
    exact ih.apply hram w

/-- The RAM of an accepted cartridge is a store of cells.  While it is off, it reads as ones and a
write is lost; while it is on, an address reads as the value that was stored last in the cell that
it shows.  No address ever leads out of the RAM. -/
theorem banked_store {image : Array UInt8} {c₀ : Cartridge} (himage : ofImage image = .ok c₀)
    (hram : 1 ≤ c₀.header.ramBanks) (ws : List CartridgeWrite) :
    let h := c₀.header
    let r := RamHistory.of h ws
    let c := c₀.after ws
    c.mapper.ramEnabled = r.controls.ramOn h.kind ∧
    (c.mapper.ramEnabled = false →
      (∀ addr, c.readRam addr = 0xFF) ∧ ∀ addr v, c.writeRam addr v = c) ∧
    (c.mapper.ramEnabled = true →
      ∀ addr, c.readRam addr = h.kind.seen (r.stored (r.controls.cell h addr))) ∧
    ∀ addr, c.mapper.ramOffset addr < c.ram.size := by
  intro h r c
  have hc : c.Stores h r := stores_after himage hram ws
  have henabled := hc.mapper.ramEnabled_eq
  have hvisible := hc.ramVisible_eq hram
  refine ⟨henabled, fun hoff => ?_, fun hon => ?_, hc.ramOffset_lt hram⟩
  · have hhidden : ¬ c.ramVisible := by
      rw [hvisible, ← henabled, hoff]
      exact Bool.false_ne_true
    exact ⟨fun addr => if_neg hhidden, fun addr v => if_neg hhidden⟩
  · exact hc.readRam_eq hram (henabled ▸ hon)

/-- A program that stores a value in the same place of two banks, and returns to the first one. -/
def revisit : List CartridgeWrite := [
  .control 0 0x0A, .control 0x6000 1, .control 0x4000 2, .ram 0xA000 7,
  .control 0x4000 0, .ram 0xA000 9, .control 0x4000 2]

/-- An MBC1 with four banks of RAM still has the first of the two values. -/
theorem banked_store_revisit : ∃ c₀, ofImage (codedImage 0x03 0x03) = .ok c₀ ∧
    1 ≤ c₀.header.ramBanks ∧ (c₀.after revisit).mapper.ramEnabled = true ∧
    (c₀.after revisit).readRam 0xA000 = 7 := by
  obtain ⟨⟨title, kind, battery, romBanks, ramBanks, checksum⟩, hparse, hkind, -, -,
    hramBanks⟩ := parse_codedImage (show MapperKind.ofCode? 0x03 = some (.mbc1, true) by decide)
      (show Header.ramBanks? 0x03 = some 4 by decide)
  obtain rfl : kind = .mbc1 := hkind
  obtain rfl : ramBanks = 4 := hramBanks
  have himage := ofImage_of_parse hparse
  have hram : 1 ≤ 4 := by decide
  obtain ⟨henabled, -, hread, -⟩ := banked_store himage hram revisit
  have hon := henabled.trans rfl
  exact ⟨_, himage, hram, hon, (hread hon 0xA000).trans rfl⟩

end Cartridge

end Handheld
