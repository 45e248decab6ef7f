/-!
# Bytes and words

The console computes with bytes (`UInt8`) and with words of two bytes (`UInt16`).  `Word.high` and
`Word.low` take a word apart, `Word.join` puts it together again, and `Word.ofSigned` widens a
byte read as a two's complement number.  `Byte.bit` names a single bit, and `Byte.ofBit` is the byte
with at most that bit set.  What masks and shifts do to a byte is said of its bits.
-/

namespace Handheld

namespace Byte

/-- Bit `i` of a byte, counted from the least significant one. -/
def bit (b : UInt8) (i : Nat) : Bool :=
  b.toNat.testBit i

/-- The byte whose bit `i` is `on` and whose other bits are clear. -/
def ofBit (i : UInt8) (on : Bool) : UInt8 :=
  if on then 1 <<< i else 0

/-- The byte with its two nibbles exchanged. -/
def swapNibbles (b : UInt8) : UInt8 :=
  (b <<< 4) ||| (b >>> 4)

/-- A bit is common to two bytes if both have it. -/
theorem bit_and (v w : UInt8) (i : Nat) : bit (v &&& w) i = (bit v i && bit w i) := by
  rw [bit, UInt8.toNat_and, Nat.testBit_and]
  rfl

/-- The complement of a byte has the bits that the byte has not. -/
theorem bit_not (v : UInt8) {i : Nat} (hi : i < 8) : bit (~~~v) i = !bit v i := by
  have hnot : (~~~v).toNat = 2 ^ 8 - (v.toNat + 1) := by
    rw [UInt8.toNat_not, Nat.add_comm v.toNat 1]
    exact Nat.sub_sub _ _ _
  rw [bit, hnot, Nat.testBit_two_pow_sub_succ v.toNat_lt, decide_eq_true hi]
  rfl

/-- A bit is in one of two bytes or in both. -/
theorem bit_or (v w : UInt8) (i : Nat) : bit (v ||| w) i = (bit v i || bit w i) := by
  rw [bit, UInt8.toNat_or, Nat.testBit_or]
  rfl

/-- The bits, moved up; what leaves the byte is lost. -/
theorem bit_shiftLeft (v : UInt8) {k : UInt8} (hk : k.toNat < 8) {i : Nat} (hi : i < 8) :
    bit (v <<< k) i = (decide (k.toNat ≤ i) && bit v (i - k.toNat)) := by
  rw [bit, UInt8.toNat_shiftLeft, Nat.mod_eq_of_lt hk, Nat.testBit_mod_two_pow, decide_eq_true hi,
    Bool.true_and, Nat.testBit_shiftLeft]
  rfl

/-- The bits, moved down. -/
theorem bit_shiftRight (v : UInt8) {k : UInt8} (hk : k.toNat < 8) (i : Nat) :
    bit (v >>> k) i = bit v (i + k.toNat) := by
  rw [bit, UInt8.toNat_shiftRight, Nat.mod_eq_of_lt hk, Nat.testBit_shiftRight, Nat.add_comm]
  rfl

/-- The bits of the upper nibble, moved down. -/
theorem bit_shiftRight_four (v : UInt8) (i : Nat) : bit (v >>> 4) i = bit v (i + 4) :=
  bit_shiftRight v (by decide) i

/-- A byte with at most one bit. -/
theorem bit_ofBit {k : UInt8} (hk : k.toNat < 8) (on : Bool) {i : Nat} (hi : i < 8) :
    bit (ofBit k on) i = (on && decide (i = k.toNat)) := by
  cases on with
  | false => exact Nat.zero_testBit i
  | true =>
    have hone : bit 1 (i - k.toNat) = decide (0 = i - k.toNat) := Nat.testBit_two_pow (n := 0)
    rw [ofBit, if_pos rfl, bit_shiftLeft 1 hk hi, hone, Bool.true_and, ← Bool.decide_and]
    exact decide_eq_decide.mpr (by omega)

/-- The lower nibble has the first four bits. -/
theorem bit_nibble (i : Nat) : bit 0x0F i = decide (i < 4) :=
  Nat.testBit_two_pow_sub_one 4 i

/-- There are eight bits. -/
theorem lt_of_bit {v : UInt8} {i : Nat} (h : bit v i = true) : i < 8 := by
  have hlt : 2 ^ i < 2 ^ 8 := Nat.lt_of_le_of_lt (Nat.ge_two_pow_of_testBit h) v.toNat_lt
  exact (Nat.pow_lt_pow_iff_right (by decide)).mp hlt

/-- There are none beyond. -/
theorem bit_of_le (v : UInt8) {i : Nat} (hi : 8 ≤ i) : bit v i = false :=
  Bool.eq_false_iff.mpr fun h => Nat.not_lt.mpr hi (lt_of_bit h)

/-- A byte is determined by its eight bits. -/
theorem ext_bits {v w : UInt8} (h : ∀ i < 8, bit v i = bit w i) : v = w := by
  refine UInt8.toNat_inj.mp (Nat.eq_of_testBit_eq fun i => ?_)
  by_cases hi : i < 8
  · exact h i hi
  · exact (bit_of_le v (Nat.not_lt.mp hi)).trans (bit_of_le w (Nat.not_lt.mp hi)).symm

/-- A byte is not zero if it has a bit. -/
theorem ne_zero_iff (v : UInt8) : v ≠ 0 ↔ ∃ i < 8, bit v i = true := by
  refine ⟨fun hv => ?_, ?_⟩
  · have hne : v.toNat ≠ 0 := fun hzero => hv (UInt8.toNat_inj.mp hzero)
    obtain ⟨i, hi⟩ := Nat.exists_testBit_of_ne_zero hne
    exact ⟨i, lt_of_bit hi, hi⟩
  · rintro ⟨i, -, hi⟩ rfl
    rw [bit, UInt8.toNat_zero, Nat.zero_testBit] at hi
    cases hi

/-- Masking twice is masking once. -/
@[simp] theorem and_mask_mask (b mask : UInt8) : b &&& mask &&& mask = b &&& mask := by
  rw [UInt8.and_assoc, UInt8.and_self]

end Byte

namespace Word

/-- The more significant byte of a word. -/
def high (w : UInt16) : UInt8 :=
  (w / 256).toUInt8

/-- The less significant byte of a word. -/
def low (w : UInt16) : UInt8 :=
  w.toUInt8

/-- The word with the given high and low bytes. -/
def join (hi lo : UInt8) : UInt16 :=
  hi.toUInt16 * 256 + lo.toUInt16

/-- The word with the value of a byte in two's complement, modulo `2 ^ 16`. -/
def ofSigned (e : UInt8) : UInt16 :=
  if e < 0x80 then e.toUInt16 else e.toUInt16 + 0xFF00

/-- Below a word and then below the word below it. -/
theorem sub_one_sub_one (w : UInt16) : w - 1 - 1 = w - 2 := by
  grind

theorem toNat_join (hi lo : UInt8) : (join hi lo).toNat = 256 * hi.toNat + lo.toNat := by
  have h := hi.toNat_lt
  have l := lo.toNat_lt
  simp only [join, UInt16.toNat_add, UInt16.toNat_mul, UInt8.toNat_toUInt16, UInt16.toNat_ofNat,
    Nat.reducePow, Nat.reduceMod]
  omega

theorem toNat_high (w : UInt16) : (high w).toNat = w.toNat / 256 := by
  have h := w.toNat_lt
  simp only [high, UInt16.toNat_toUInt8, UInt16.toNat_div, UInt16.toNat_ofNat,
    Nat.reducePow, Nat.reduceMod]
  omega

theorem toNat_low (w : UInt16) : (low w).toNat = w.toNat % 256 := by
  simp [low]

@[simp] theorem high_join (hi lo : UInt8) : high (join hi lo) = hi := by
  have h := hi.toNat_lt
  have l := lo.toNat_lt
  apply UInt8.toNat_inj.mp
  rw [toNat_high, toNat_join]
  omega

@[simp] theorem low_join (hi lo : UInt8) : low (join hi lo) = lo := by
  have l := lo.toNat_lt
  apply UInt8.toNat_inj.mp
  rw [toNat_low, toNat_join]
  omega

@[simp] theorem low_toUInt16 (v : UInt8) : low v.toUInt16 = v := by
  simp [low]

@[simp] theorem join_high_low (w : UInt16) : join (high w) (low w) = w := by
  apply UInt16.toNat_inj.mp
  rw [toNat_join, toNat_high, toNat_low]
  omega

end Word

end Handheld
