import Handheld.Proofs.Saved.Cartridge
import Mathlib.Algebra.BigOperators.Intervals

/-!
# Accepted images

`Header.Accepted` lists in numbers what an image must say about itself to be accepted, and
`Header.Describes` what the header of an accepted image says about the cartridge.

The stored checksum makes up for what it covers: an image has the right checksum exactly if the
bytes from `0x134` to `0x14D` and 25 more add up to a multiple of 256 (`Header.checks_iff`).  A
single byte that is replaced changes this sum by less than 256, so it is always noticed.  The main
statement is `Header.parse_accepts`.
-/

namespace Handheld

/-! ### The codes -/

/-- The cartridge types, with their controllers and with whether a battery keeps the RAM. -/
def MapperKind.table : List (UInt8 × MapperKind × Bool) := [
  (0x00, none, false), (0x08, none, false), (0x09, none, true),
  (0x01, mbc1, false), (0x02, mbc1, false), (0x03, mbc1, true),
  (0x05, mbc2, false), (0x06, mbc2, true),
  (0x11, mbc3, false), (0x12, mbc3, false),
  (0x0F, mbc3, true), (0x10, mbc3, true), (0x13, mbc3, true),
  (0x19, mbc5, false), (0x1A, mbc5, false), (0x1C, mbc5, false), (0x1D, mbc5, false),
  (0x1B, mbc5, true), (0x1E, mbc5, true)]

/-- A cartridge type names what the table says. -/
lemma MapperKind.ofCode?_eq_lookup (code : UInt8) : ofCode? code = table.lookup code := by
  have hall : ∀ n < 256, ofCode? (UInt8.ofNat n) = table.lookup (UInt8.ofNat n) := by
    decide +kernel
  simpa using hall code.toNat code.toNat_lt

namespace Header

/-- A size code names twice as many ROM banks as the one before. -/
lemma romBanks?_eq_some_iff {code : UInt8} {n : Nat} :
    romBanks? code = some n ↔ code ≤ 8 ∧ n = 2 ^ (code.toNat + 1) := by
  rw [romBanks?, Option.ite_none_right_eq_some, Option.some.injEq, Nat.shiftLeft_eq,
    Nat.pow_succ, Nat.mul_comm, eq_comm]

/-- The size codes of RAM end with five. -/
lemma isSome_ramBanks?_iff (code : UInt8) : (ramBanks? code).isSome = true ↔ code ≤ 5 := by
  have hall : ∀ n < 256, (ramBanks? (UInt8.ofNat n)).isSome = decide (UInt8.ofNat n ≤ 5) := by
    decide +kernel
  have hcode := hall code.toNat code.toNat_lt
  rw [UInt8.ofNat_toNat] at hcode
  rw [hcode, decide_eq_true_iff]

/-- There is no RAM, or the number of its banks is a power of two. -/
lemma ramBanks_of_code {code : UInt8} {n : Nat} (h : ramBanks? code = some n) :
    n = 0 ∨ ∃ k, n = 2 ^ k := by
  unfold ramBanks? at h
  split at h
  case h_1 => exact .inl (Option.some.inj h).symm
  case h_2 | h_3 => exact .inr ⟨0, (Option.some.inj h).symm⟩
  case h_4 => exact .inr ⟨2, (Option.some.inj h).symm⟩
  case h_5 => exact .inr ⟨4, (Option.some.inj h).symm⟩
  case h_6 => exact .inr ⟨3, (Option.some.inj h).symm⟩
  case h_7 => cases h

/-! ### The checksum -/

/-- The sum of the bytes that the checksum covers. -/
def coveredSum (image : Array UInt8) : Nat := ∑ i ∈ Finset.Icc 0x134 0x14C, (image.getD i 0).toNat

/-- Taking away bytes, and one more for each, is undone by adding them. -/
lemma toNat_foldl_sub (f : Nat → UInt8) (l : List Nat) (sum : UInt8) :
    ((l.foldl (fun sum i => sum - f i - 1) sum).toNat + l.length +
      (l.map fun i => (f i).toNat).sum) % 256 = sum.toNat := by
  induction l generalizing sum with
  | nil => exact Nat.mod_eq_of_lt sum.toNat_lt
  | cons i l ih =>
    have hstep := ih (sum - f i - 1)
    have hsum := sum.toNat_lt
    have hbyte := (f i).toNat_lt
    rw [UInt8.toNat_sub, UInt8.toNat_sub, UInt8.toNat_one] at hstep
    rw [List.foldl_cons, List.length_cons, List.map_cons, List.sum_cons]
    omega

/-- The checksum makes up for the bytes that it covers. -/
lemma checksumOf_add (image : Array UInt8) :
    ((checksumOf image).toNat + 25 + coveredSum image) % 256 = 0 :=
  toNat_foldl_sub (fun i => image.getD i 0) (List.range' 0x134 25) 0

/-- A checksum is right if it is minus what it covers, modulo 256. -/
lemma checksum_iff (image : Array UInt8) : image.getD 0x14D 0 = checksumOf image ↔
    ((image.getD 0x14D 0).toNat : Int) = (-(25 + coveredSum image : Nat)) % 256 := by
  have hadd := checksumOf_add image
  have hstored := (image.getD 0x14D 0).toNat_lt
  have hcomputed := (checksumOf image).toNat_lt
  rw [← UInt8.toNat_inj]
  omega

/-- The description and its checksum add up to a multiple of 256, but for 25. -/
theorem checks_iff (image : Array UInt8) : image.getD 0x14D 0 = checksumOf image ↔
    256 ∣ 25 + ∑ i ∈ Finset.Icc 0x134 0x14D, (image.getD i 0).toNat := by
  have hsplit : ∑ i ∈ Finset.Icc 0x134 0x14D, (image.getD i 0).toNat =
      coveredSum image + (image.getD 0x14D 0).toNat := Finset.sum_Icc_succ_top (by decide) _
  have hadd := checksumOf_add image
  have hstored := (image.getD 0x14D 0).toNat_lt
  have hcomputed := (checksumOf image).toNat_lt
  rw [hsplit, ← UInt8.toNat_inj]
  omega

/-- A byte that is replaced changes the sum by the difference. -/
lemma sum_setIfInBounds (image : Array UInt8) {i : Nat} (hi : i < image.size) (v : UInt8)
    {places : Finset Nat} (hplace : i ∈ places) :
    ∑ j ∈ places, ((image.setIfInBounds i v).getD j 0).toNat + (image.getD i 0).toNat =
      ∑ j ∈ places, (image.getD j 0).toNat + v.toNat := by
  have hrest : ∑ j ∈ places.erase i, ((image.setIfInBounds i v).getD j 0).toNat =
      ∑ j ∈ places.erase i, (image.getD j 0).toNat := by
    refine Finset.sum_congr rfl fun j hj => ?_
    rw [Cartridge.getD_setIfInBounds image hi, if_neg (Finset.ne_of_mem_erase hj)]
  rw [← Finset.add_sum_erase _ _ hplace, ← Finset.add_sum_erase _ _ hplace, hrest,
    Cartridge.getD_setIfInBounds image hi, if_pos rfl]
  omega

/-- A single byte that is replaced makes a right checksum wrong. -/
lemma checksum_ne_of_replaced {image : Array UInt8} (hsize : 0x14D < image.size)
    (h : image.getD 0x14D 0 = checksumOf image) {i : Nat} (hfirst : 0x134 ≤ i) (hlast : i ≤ 0x14D)
    {v : UInt8} (hv : v ≠ image.getD i 0) :
    (image.setIfInBounds i v).getD 0x14D 0 ≠ checksumOf (image.setIfInBounds i v) := by
  have hsum := sum_setIfInBounds image (Nat.lt_of_le_of_lt hlast hsize) v
    (Finset.mem_Icc.mpr ⟨hfirst, hlast⟩)
  have hne : v.toNat ≠ (image.getD i 0).toNat := fun heq => hv (UInt8.toNat_inj.mp heq)
  have hold := (image.getD i 0).toNat_lt
  have hnew := v.toNat_lt
  rw [Ne, checks_iff]
  rw [checks_iff] at h
  omega

/-- What the checksum covers is not its own place. -/
lemma checksumOf_sealed (image : Array UInt8) (hsize : 0x14D < image.size) (v : UInt8) :
    checksumOf (image.setIfInBounds 0x14D v) = checksumOf image := by
  refine List.foldl_ext _ _ _ fun sum i hi => ?_
  have hne : i ≠ 0x14D := by
    simp only [List.mem_range'_1] at hi
    omega
  rw [Cartridge.getD_setIfInBounds image hsize, if_neg hne]

/-! ### The checks -/

/-- An image is accepted if it passes every check, and its header says what was found. -/
lemma parse_eq_ok_iff {image : Array UInt8} {h : Header} : parse image = .ok h ↔
    romBankSize ≤ image.size ∧ image.getD 0x14D 0 = checksumOf image ∧
    image.getD 0x143 0 ≠ 0xC0 ∧ ∃ kind battery romBanks ramBanks,
      MapperKind.ofCode? (image.getD 0x147 0) = some (kind, battery) ∧
      romBanks? (image.getD 0x148 0) = some romBanks ∧
      ramBanks? (image.getD 0x149 0) = some ramBanks ∧
      image.size = romBanks * romBankSize ∧
      h = {
        title := titleOf image, kind := kind, battery := battery, romBanks := romBanks
        ramBanks := if kind = .mbc2 then 1 else ramBanks, checksum := image.getD 0x14D 0 } := by
  constructor
  · intro himage
    unfold parse at himage
    simp only [throw, throwThe, MonadExceptOf.throw, bind, Except.bind, pure, Except.pure] at himage
    split at himage
    · cases himage
    rename_i hsize
    split at himage
    · cases himage
    rename_i hchecksum
    split at himage
    · cases himage
    rename_i hcolor
    split at himage
    case h_2 => cases himage
    case h_1 kind battery hkind =>
      split at himage
      case h_2 => cases himage
      case h_1 romBanks hrom =>
        split at himage
        case h_2 => cases himage
        case h_1 ramBanks hram =>
          split at himage
          · cases himage
          rename_i hlength
          cases himage
          exact ⟨Nat.not_lt.mp hsize, Decidable.not_not.mp hchecksum, hcolor, kind, battery,
            romBanks, ramBanks, hkind, hrom, hram, Decidable.not_not.mp hlength, rfl⟩
  · rintro ⟨hsize, hchecksum, hcolor, kind, battery, romBanks, ramBanks, hkind, hrom, hram,
      hlength, rfl⟩
    rw [hlength] at hsize
    simp only [parse, if_neg (Nat.not_lt.mpr hsize), hchecksum, ne_eq, not_true_eq_false, if_false,
      if_neg hcolor, hkind, hrom, hram, hlength]
    rfl

/-- An image is refused for its checksum exactly if it is long enough and the checksum is wrong. -/
lemma parse_eq_headerChecksum_iff {image : Array UInt8} {stored computed : UInt8} :
    parse image = .error (.headerChecksum stored computed) ↔
      romBankSize ≤ image.size ∧ image.getD 0x14D 0 ≠ checksumOf image ∧
      stored = image.getD 0x14D 0 ∧ computed = checksumOf image := by
  constructor
  · intro himage
    unfold parse at himage
    simp only [throw, throwThe, MonadExceptOf.throw, bind, Except.bind, pure, Except.pure] at himage
    split at himage
    · cases himage
    rename_i hsize
    split at himage
    · rename_i hchecksum
      cases himage
      exact ⟨Nat.not_lt.mp hsize, hchecksum, rfl, rfl⟩
    -- No later check speaks of the checksum.
    iterate 5
      split at himage
      all_goals try cases himage
  · rintro ⟨hsize, hchecksum, rfl, rfl⟩
    simp only [parse, if_neg (Nat.not_lt.mpr hsize), if_pos hchecksum]
    rfl

end Header

/-- The cartridge of an accepted image is fresh: its RAM is zero. -/
lemma Cartridge.ofImage_of_parse {image : Array UInt8} {h : Header}
    (himage : Header.parse image = .ok h) :
    ofImage image = .ok ⟨h, image, Array.replicate h.ramSize 0, .fresh h⟩ := by
  rw [ofImage, himage]
  rfl

/-! ### Acceptance in numbers -/

namespace Header

/-- What an image must say about itself to be accepted. -/
structure Accepted (image : Array UInt8) : Prop where
  long : 0x4000 ≤ image.size
  checksum : ((image.getD 0x14D 0).toNat : Int) =
    (-(25 + ∑ i ∈ Finset.Icc 0x134 0x14C, (image.getD i 0).toNat : Nat)) % 256
  color : image.getD 0x143 0 ≠ 0xC0
  type : (MapperKind.table.lookup (image.getD 0x147 0)).isSome = true
  rom : image.getD 0x148 0 ≤ 8
  ram : image.getD 0x149 0 ≤ 5
  size : image.size = 0x4000 * 2 ^ ((image.getD 0x148 0).toNat + 1)

/-- What the header of an accepted image says about the cartridge. -/
structure Describes (h : Header) (image : Array UInt8) : Prop where
  type : MapperKind.table.lookup (image.getD 0x147 0) = some (h.kind, h.battery)
  romBanks : h.romBanks = 2 ^ ((image.getD 0x148 0).toNat + 1)
  ramBanks : h.ramBanks = 0 ∨ ∃ k, h.ramBanks = 2 ^ k
  romSize : image.size = h.romBanks * 0x4000
  /-- The fresh cartridge has the image and RAM for all banks. -/
  fresh : ∃ c, Cartridge.ofImage image = .ok c ∧ c.header = h ∧ c.rom = image ∧
    c.ram.size = h.ramBanks * 0x2000

/-- An image is accepted exactly if it says what it must. -/
lemma exists_parse_iff (image : Array UInt8) :
    (∃ h, parse image = .ok h) ↔ Accepted image := by
  constructor
  · rintro ⟨h, himage⟩
    obtain ⟨hlong, hchecksum, hcolor, kind, battery, romBanks, ramBanks, hkind, hrom, hram, hlength,
      -⟩ := parse_eq_ok_iff.mp himage
    obtain ⟨hcode, rfl⟩ := romBanks?_eq_some_iff.mp hrom
    refine ⟨hlong, (checksum_iff image).mp hchecksum, hcolor, ?_, hcode, ?_, ?_⟩
    · rw [← MapperKind.ofCode?_eq_lookup, hkind]
      rfl
    · rw [← isSome_ramBanks?_iff, hram]
      rfl
    · rw [hlength, Nat.mul_comm]
      rfl
  · intro haccepted
    have htype := haccepted.type
    rw [← MapperKind.ofCode?_eq_lookup] at htype
    obtain ⟨⟨kind, battery⟩, hkind⟩ := Option.isSome_iff_exists.mp htype
    obtain ⟨ramBanks, hram⟩ :=
      Option.isSome_iff_exists.mp ((isSome_ramBanks?_iff _).mpr haccepted.ram)
    exact ⟨_, parse_eq_ok_iff.mpr ⟨haccepted.long, (checksum_iff image).mpr haccepted.checksum,
      haccepted.color, kind, battery, _, ramBanks, hkind,
      romBanks?_eq_some_iff.mpr ⟨haccepted.rom, rfl⟩, hram,
      haccepted.size.trans (Nat.mul_comm _ _), rfl⟩⟩

/-- The header of an accepted image describes the cartridge. -/
lemma describes_of_parse {image : Array UInt8} {h : Header} (himage : parse image = .ok h) :
    h.Describes image := by
  obtain ⟨-, -, -, kind, battery, romBanks, ramBanks, hkind, hrom, hram, hlength, rfl⟩ :=
    parse_eq_ok_iff.mp himage
  refine ⟨?_, (romBanks?_eq_some_iff.mp hrom).2, ?_, hlength, _,
    Cartridge.ofImage_of_parse himage, rfl, rfl, Array.size_replicate⟩
  · rw [← MapperKind.ofCode?_eq_lookup, hkind]
  · simp only
    split
    · exact .inr ⟨0, rfl⟩
    · exact ramBanks_of_code hram

/-- An image is accepted exactly if it is long enough, its checksum makes up for what it covers, the
console is good enough for it, its codes are known and its size is what they say.  Its header then
describes the cartridge.  If a single byte of the description or of the checksum of an accepted
image is replaced, the image is refused for its checksum; an image with the computed checksum in its
place never is. -/
theorem parse_accepts (image : Array UInt8) :
    ((∃ h, parse image = .ok h) ↔ Accepted image) ∧
    (∀ h, parse image = .ok h → h.Describes image ∧
      ∀ i v, 0x134 ≤ i → i ≤ 0x14D → v ≠ image.getD i 0 → ∃ stored computed,
        parse (image.setIfInBounds i v) = .error (.headerChecksum stored computed)) ∧
    (0x14D < image.size →
      let corrected := image.setIfInBounds 0x14D (checksumOf image)
      corrected.getD 0x14D 0 = checksumOf corrected ∧
        ∀ stored computed, parse corrected ≠ .error (.headerChecksum stored computed)) := by
  refine ⟨exists_parse_iff image, fun h himage => ⟨describes_of_parse himage, ?_⟩, fun hsize => ?_⟩
  · intro i v hfirst hlast hv
    obtain ⟨hlong, hchecksum, -⟩ := parse_eq_ok_iff.mp himage
    have hsize : 0x14D < image.size := Nat.lt_of_lt_of_le (by decide) hlong
    refine ⟨_, _, parse_eq_headerChecksum_iff.mpr ⟨?_, ?_, rfl, rfl⟩⟩
    · rw [Array.size_setIfInBounds]
      exact hlong
    · exact checksum_ne_of_replaced hsize hchecksum hfirst hlast hv
  · intro corrected
    have hright : corrected.getD 0x14D 0 = checksumOf corrected := by
      rw [checksumOf_sealed image hsize, Cartridge.getD_setIfInBounds image hsize, if_pos rfl]
    exact ⟨hright, fun stored computed himage =>
      (parse_eq_headerChecksum_iff.mp himage).2.1 hright⟩

/-- An MBC2 whose size code names more RAM than it has.  If it claims to need a colour console, it
is refused for its checksum and not for the claim. -/
theorem parse_accepts_mbc2 :
    let image := Cartridge.codedImage 0x06 0x05
    0x14D < image.size ∧ 0xC0 ≠ image.getD 0x143 0 ∧ ∃ h, parse image = .ok h ∧
      h.kind = .mbc2 ∧ image.size = h.romBanks * 0x4000 ∧
      (∃ stored computed,
        parse (image.setIfInBounds 0x143 0xC0) = .error (.headerChecksum stored computed)) ∧
      ∀ stored computed, parse (image.setIfInBounds 0x14D (checksumOf image)) ≠
        .error (.headerChecksum stored computed) := by
  intro image
  obtain ⟨h, himage, hkind, -⟩ := Cartridge.parse_codedImage
    (show MapperKind.ofCode? 0x06 = some (.mbc2, true) by decide)
    (show ramBanks? 0x05 = some 8 by decide)
  have hsize : 0x14D < image.size := by simp [image, Cartridge.codedImage]
  have hcolor : 0xC0 ≠ image.getD 0x143 0 := by
    rw [Cartridge.getD_codedImage]
    decide
  obtain ⟨-, hparsed, hcorrected⟩ := parse_accepts image
  obtain ⟨hdescribes, hreplaced⟩ := hparsed h himage
  exact ⟨hsize, hcolor, h, himage, hkind, hdescribes.romSize,
    hreplaced 0x143 0xC0 (by decide) (by decide) hcolor, (hcorrected hsize).2⟩

end Header

end Handheld
