import Handheld.Proofs.Arithmetic.Binary

/-!
# Arithmetic with decimal numbers

A byte holds two decimal digits.  `ADC` and `SBC` work on them as on any byte, and `DAA` makes two
decimal digits of the result again (`Core.combineDecimal`).  To do this it needs to know which
digits have carried: it adds six to a digit of a sum that is no decimal digit any more or that has
carried out of its nibble, and subtracts six from a digit of a difference that has borrowed
(`Alu.decimal_add`, `Alu.decimal_sub`).  Upwards it may also find a carry that the binary sum did
not have; this is the carry that the next byte takes in.

The main statement is `Core.decimal_arithmetic`, about decimal numbers of any length.
-/

namespace Handheld

/-- Two decimal digits make a decimal byte. -/
lemma Numeral.decimal_of_digits {r : UInt8} {h l : Int}
    (hr : (r.toNat : Int) = (16 * h + l) % 256) (hh : 0 ≤ h ∧ h ≤ 9) (hl : 0 ≤ l ∧ l ≤ 9) :
    decimal.Valid r ∧ (decimal.value r : Int) = 10 * h + l := by
  change (_ ≤ 9 ∧ _ ≤ 9) ∧ ((10 * _ + _ : Nat) : Int) = _
  omega

/-! ### Corrections -/

namespace Alu

/-- A correction that is applied or not, upwards. -/
lemma toNat_ite_add (b : Bool) (a k : UInt8) :
    (if b then a + k else a).toNat = (a.toNat + k.toNat * b.toNat) % 256 := by
  cases b with
  | true => rw [if_pos rfl, UInt8.toNat_add, Bool.toNat_true, Nat.mul_one]
  | false =>
    rw [if_neg Bool.false_ne_true, Bool.toNat_false, Nat.mul_zero, Nat.add_zero,
      Nat.mod_eq_of_lt a.toNat_lt]

/-- A correction that is applied or not, downwards. -/
lemma toNat_ite_sub (b : Bool) (a k : UInt8) :
    ((if b then a - k else a).toNat : Int) = (a.toNat - k.toNat * b.toNat) % 256 := by
  have ha := a.toNat_lt
  have hk := k.toNat_lt
  cases b with
  | true =>
    rw [if_pos rfl, UInt8.toNat_sub, Bool.toNat_true]
    omega
  | false =>
    rw [if_neg Bool.false_ne_true, Bool.toNat_false]
    omega

/-- The correction keeps the kind of the operation, tells whether the result is zero, and clears the
carry between the digits. -/
lemma decimalAdjust_flags (a : UInt8) (f : Flags) :
    (decimalAdjust a f).2.subtract = f.subtract ∧ (decimalAdjust a f).2.halfCarry = false ∧
      ((decimalAdjust a f).2.zero = true ↔ (decimalAdjust a f).1 = 0) :=
  ⟨rfl, rfl, beq_iff_eq⟩

/-- Upwards, the correction adds six to a digit that is no decimal digit or that has carried. -/
lemma toNat_decimalAdjust_add (a : UInt8) {f : Flags} (hf : f.subtract = false) :
    let carry := f.carry || decide (a.toNat > 0x99)
    let half := f.halfCarry || decide (a.toNat % 16 > 9)
    (decimalAdjust a f).2.carry = carry ∧
      (decimalAdjust a f).1.toNat = (a.toNat + 0x60 * carry.toNat + 0x06 * half.toNat) % 256 := by
  intro carry half
  let high := if carry then a + 0x60 else a
  have hhigh : high.toNat = (a.toNat + 0x60 * carry.toNat) % 256 := toNat_ite_add carry a 0x60
  -- The correction of the upper digit leaves the lower one as it is.
  have hlow : high.toNat % 16 = a.toNat % 16 := by omega
  have hadjust : decimalAdjust a f = (if half then high + 0x06 else high,
      { f with zero := (if half then high + 0x06 else high) == 0
               halfCarry := false
               carry := carry }) := by
    simp only [half, ← hlow]
    simp only [decimalAdjust, hf, Bool.false_eq_true, if_false, high, carry]
  have hr : (if half then high + 0x06 else high).toNat = (high.toNat + 0x06 * half.toNat) % 256 :=
    toNat_ite_add half high 0x06
  rw [hadjust]
  refine ⟨rfl, ?_⟩
  rw [hr]
  omega

/-- Downwards, it subtracts six from a digit that has borrowed. -/
lemma toNat_decimalAdjust_sub (a : UInt8) {f : Flags} (hf : f.subtract = true) :
    (decimalAdjust a f).2.carry = f.carry ∧
      ((decimalAdjust a f).1.toNat : Int) =
        (a.toNat - 0x60 * f.carry.toNat - 0x06 * f.halfCarry.toNat) % 256 := by
  let high := if f.carry then a - 0x60 else a
  have hhigh : (high.toNat : Int) = (a.toNat - 0x60 * f.carry.toNat) % 256 :=
    toNat_ite_sub f.carry a 0x60
  have hr : ((if f.halfCarry then high - 0x06 else high).toNat : Int) =
      (high.toNat - 0x06 * f.halfCarry.toNat) % 256 := toNat_ite_sub f.halfCarry high 0x06
  have hadjust : decimalAdjust a f = (if f.halfCarry then high - 0x06 else high,
      { f with zero := (if f.halfCarry then high - 0x06 else high) == 0, halfCarry := false }) := by
    simp only [decimalAdjust, hf, if_true, high]
  rw [hadjust]
  refine ⟨rfl, ?_⟩
  rw [hr]
  omega

/-- After an addition the correction finds out which of the exact sums of the digits are no decimal
digits. -/
lemma add_digits (x y : UInt8) (c : Bool) :
    ((add x y c).2.halfCarry || decide ((add x y c).1.toNat % 16 > 9)) =
        decide (x.toNat % 16 + y.toNat % 16 + c.toNat > 9) ∧
      ((add x y c).2.carry || decide ((add x y c).1.toNat > 0x99)) =
        decide (x.toNat + y.toNat + c.toNat > 0x99) := by
  have hsum := toNat_add x y c
  have hhalf : (add x y c).2.halfCarry =
    decide (x.toNat % 16 + y.toNat % 16 + c.toNat > 15) := rfl
  have hcarry : (add x y c).2.carry = decide (x.toNat + y.toNat + c.toNat > 255) := rfl
  rw [hhalf, hcarry, ← Bool.decide_or, ← Bool.decide_or]
  exact ⟨decide_eq_decide.mpr (by omega), decide_eq_decide.mpr (by omega)⟩

/-- After a subtraction it is told which digits have borrowed. -/
lemma sub_digits (x y : UInt8) (c : Bool) :
    (sub x y c).2.halfCarry = decide (x.toNat % 16 < y.toNat % 16 + c.toNat) ∧
      (sub x y c).2.carry = decide (x.toNat < y.toNat + c.toNat) :=
  ⟨rfl, rfl⟩

variable {x y : UInt8} (hx : Numeral.decimal.Valid x) (hy : Numeral.decimal.Valid y) (c : Bool)

include hx hy

/-- A corrected sum of two decimal bytes is their decimal sum. -/
theorem decimal_add :
    let r := decimalAdjust (add x y c).1 (add x y c).2
    Numeral.decimal.Valid r.1 ∧
      (Numeral.decimal.value r.1 : Int) =
        Numeral.decimal.value x + (Numeral.decimal.value y + c.toNat) - 100 * r.2.carry.toNat := by
  obtain ⟨hxhigh, hxlow⟩ := hx
  obtain ⟨hyhigh, hylow⟩ := hy
  have hc := c.toNat_le
  have hsum := toNat_add x y c
  obtain ⟨hcarry, hr⟩ := toNat_decimalAdjust_add (add x y c).1 (f := (add x y c).2) rfl
  rw [(add_digits x y c).2] at hcarry hr
  rw [(add_digits x y c).1] at hr
  have hlow := toNat_decide (x.toNat % 16 + y.toNat % 16 + c.toNat > 9)
  have hhigh := toNat_decide (x.toNat + y.toNat + c.toNat > 0x99)
  generalize (decide (x.toNat % 16 + y.toNat % 16 + c.toNat > 9)).toNat = low at *
  generalize decide (x.toNat + y.toNat + c.toNat > 0x99) = high at *
  -- These are the digits of the corrected sum.
  have hlowdigit : (0 : Int) ≤ (x.toNat % 16 + y.toNat % 16 + c.toNat - 10 * low : Int) ∧
      (x.toNat % 16 + y.toNat % 16 + c.toNat - 10 * low : Int) ≤ 9 := by
    omega
  have hhighdigit : (0 : Int) ≤ (x.toNat / 16 + y.toNat / 16 + low - 10 * high.toNat : Int) ∧
      (x.toNat / 16 + y.toNat / 16 + low - 10 * high.toNat : Int) ≤ 9 := by
    omega
  obtain ⟨hvalid, hvalue⟩ := Numeral.decimal_of_digits
    (r := (decimalAdjust (add x y c).1 (add x y c).2).1) (by omega) hhighdigit hlowdigit
  intro r
  refine ⟨hvalid, ?_⟩
  rw [hvalue, hcarry]
  simp only [Numeral.decimal]
  omega

/-- A corrected difference of two decimal bytes is their decimal difference. -/
theorem decimal_sub :
    let r := decimalAdjust (sub x y c).1 (sub x y c).2
    Numeral.decimal.Valid r.1 ∧
      (Numeral.decimal.value r.1 : Int) =
        Numeral.decimal.value x - (Numeral.decimal.value y + c.toNat) + 100 * r.2.carry.toNat := by
  obtain ⟨hxhigh, hxlow⟩ := hx
  obtain ⟨hyhigh, hylow⟩ := hy
  have hc := c.toNat_le
  have hdifference := toNat_sub x y c
  obtain ⟨hcarry, hr⟩ := toNat_decimalAdjust_sub (sub x y c).1 (f := (sub x y c).2) rfl
  rw [(sub_digits x y c).2] at hcarry hr
  rw [(sub_digits x y c).1] at hr
  have hlow := toNat_decide (x.toNat % 16 < y.toNat % 16 + c.toNat)
  have hhigh := toNat_decide (x.toNat < y.toNat + c.toNat)
  generalize (decide (x.toNat % 16 < y.toNat % 16 + c.toNat)).toNat = low at *
  generalize decide (x.toNat < y.toNat + c.toNat) = high at *
  -- These are the digits of the corrected difference.
  have hlowdigit : (0 : Int) ≤ (x.toNat % 16 - y.toNat % 16 - c.toNat + 10 * low : Int) ∧
      (x.toNat % 16 - y.toNat % 16 - c.toNat + 10 * low : Int) ≤ 9 := by
    omega
  have hhighdigit : (0 : Int) ≤ (x.toNat / 16 - y.toNat / 16 - low + 10 * high.toNat : Int) ∧
      (x.toNat / 16 - y.toNat / 16 - low + 10 * high.toNat : Int) ≤ 9 := by
    omega
  obtain ⟨hvalid, hvalue⟩ := Numeral.decimal_of_digits
    (r := (decimalAdjust (sub x y c).1 (sub x y c).2).1) (by omega) hhighdigit hlowdigit
  intro r
  refine ⟨hvalid, ?_⟩
  rw [hvalue, hcarry]
  simp only [Numeral.decimal]
  omega

end Alu

/-! ### Long decimal numbers -/

namespace Core

variable {μ : Type} [Memory μ]

/-- Combine two decimal bytes: combine them as binary ones, and correct the result. -/
def combineDecimal (s : Core μ) (op : AluOp) (x y : UInt8) : Core μ :=
  ((s.combine op x y).execute .daa 0).1

/-- What is in the accumulator and in the flags after the correction: a decimal byte, whether it is
zero, the kind of the operation, and no carry between the digits. -/
structure IsDecimal (subtract : Bool) (t : Core μ) : Prop where
  valid : Numeral.decimal.Valid t.cpu.regs.a
  zero : t.cpu.regs.f.zero = true ↔ t.cpu.regs.a = 0
  subtract : t.cpu.regs.f.subtract = subtract
  halfCarry : t.cpu.regs.f.halfCarry = false

/-- The correction acts on what the operation has left. -/
lemma combineDecimal_eq (s : Core μ) (op : AluOp) (x y : UInt8) :
    let r := Alu.apply op x y s.cpu.regs.f.carry
    s.combineDecimal op x y = s.setResult (Alu.decimalAdjust r.1 r.2) := by
  intro r
  rw [combineDecimal, combine_eq]
  rfl

/-- Decimal bytes are added. -/
lemma accumulates_decimal_adc :
    Accumulates .decimal 1 fun (s : Core μ) x y => s.combineDecimal .adc x y where
  sign := .inl rfl
  valid s x y hx hy := by
    rw [combineDecimal_eq]
    exact (Alu.decimal_add hx hy s.cpu.regs.f.carry).1
  value s x y hx hy := by
    rw [combineDecimal_eq, one_mul, one_mul]
    exact (Alu.decimal_add hx hy s.cpu.regs.f.carry).2

/-- Decimal bytes are subtracted. -/
lemma accumulates_decimal_sbc :
    Accumulates .decimal (-1) fun (s : Core μ) x y => s.combineDecimal .sbc x y where
  sign := .inr rfl
  valid s x y hx hy := by
    rw [combineDecimal_eq]
    exact (Alu.decimal_sub hx hy s.cpu.regs.f.carry).1
  value s x y hx hy := by
    rw [combineDecimal_eq, neg_one_mul, neg_one_mul, neg_mul, sub_neg_eq_add, ← sub_eq_add_neg]
    exact (Alu.decimal_sub hx hy s.cpu.regs.f.carry).2

/-- What the correction leaves. -/
lemma isDecimal_combineDecimal {op : AluOp} {σ : Int} {subtract : Bool}
    (hop : Accumulates .decimal σ fun (s : Core μ) x y => s.combineDecimal op x y)
    (hsubtract : ∀ a v c, (Alu.apply op a v c).2.subtract = subtract) (s : Core μ) (x y : UInt8)
    (hx : Numeral.decimal.Valid x) (hy : Numeral.decimal.Valid y) :
    IsDecimal subtract (s.combineDecimal op x y) := by
  have hvalid := hop.valid s x y hx hy
  simp only [combineDecimal_eq] at hvalid ⊢
  obtain ⟨hkept, hhalf, hzero⟩ := Alu.decimalAdjust_flags
    (Alu.apply op x y s.cpu.regs.f.carry).1 (Alu.apply op x y s.cpu.regs.f.carry).2
  exact ⟨hvalid, hzero, hkept.trans (hsubtract _ _ _), hhalf⟩

/-- Two decimal numbers with as many bytes are added byte by byte, or subtracted, and every byte is
corrected.  The carry before the first byte counts, too. -/
theorem decimal_arithmetic (s : Core μ) {xs ys : List UInt8} (hlength : xs.length = ys.length)
    (hxs : ∀ x ∈ xs, Numeral.decimal.Valid x) (hys : ∀ y ∈ ys, Numeral.decimal.Valid y) :
    let x := Numeral.decimal.number xs
    let y := Numeral.decimal.number ys
    let c := s.cpu.regs.f.carry.toNat
    let sum := s.workThrough (·.combineDecimal .adc) xs ys
    let difference := s.workThrough (·.combineDecimal .sbc) xs ys
    (sum.length = xs.length ∧ (∀ t ∈ sum, t.IsDecimal false) ∧
      Numeral.decimal.number (results sum) = (x + y + c) % 100 ^ xs.length ∧
      (lastCarry s sum = true ↔ 100 ^ xs.length ≤ x + y + c)) ∧
    (difference.length = xs.length ∧ (∀ t ∈ difference, t.IsDecimal true) ∧
      (Numeral.decimal.number (results difference) : Int) =
        ((x : Int) - y - c) % 100 ^ xs.length ∧
      (lastCarry s difference = true ↔ x < y + c)) := by
  have hsum := accumulates_decimal_adc.sum s hlength hxs hys
  have hdifference := accumulates_decimal_sbc.difference s hlength hxs hys
  have hadd := isDecimal_combineDecimal (μ := μ) accumulates_decimal_adc fun _ _ _ => rfl
  have hsub := isDecimal_combineDecimal (μ := μ) accumulates_decimal_sbc fun _ _ _ => rfl
  exact ⟨⟨length_workThrough s _ hlength, forall_workThrough hadd s hxs hys, hsum⟩,
    length_workThrough s _ hlength, forall_workThrough hsub s hxs hys, hdifference⟩

/-- What `decimal_arithmetic` says about numbers of two bytes and a carry: `1299 + 8750 + 1` has a
carry, and `1299 - 8750 - 1` has a borrow. -/
theorem decimal_arithmetic_two_bytes :
    let s := filledWith 0
    let sum := s.workThrough (·.combineDecimal .adc) [0x99, 0x12] [0x50, 0x87]
    let difference := s.workThrough (·.combineDecimal .sbc) [0x99, 0x12] [0x50, 0x87]
    s.cpu.regs.f.carry = true ∧
    Numeral.decimal.number [0x99, 0x12] = 1299 ∧ Numeral.decimal.number [0x50, 0x87] = 8750 ∧
    Numeral.decimal.number (results sum) = 50 ∧ lastCarry s sum = true ∧
    Numeral.decimal.number (results difference) = 2548 ∧ lastCarry s difference = true := by
  intro s sum difference
  have hx : Numeral.decimal.number [0x99, 0x12] = 1299 := rfl
  have hy : Numeral.decimal.number [0x50, 0x87] = 8750 := rfl
  have hlength : ([0x99, 0x12] : List UInt8).length = ([0x50, 0x87] : List UInt8).length := rfl
  have hxs : ∀ x ∈ [0x99, 0x12], Numeral.decimal.Valid x := by
    simp [Numeral.decimal]
  have hys : ∀ y ∈ [0x50, 0x87], Numeral.decimal.Valid y := by
    simp [Numeral.decimal]
  obtain ⟨⟨-, -, hsum, hcarry⟩, -, -, hdifference, hborrow⟩ :=
    decimal_arithmetic s hlength hxs hys
  have hc : s.cpu.regs.f.carry.toNat = 1 := rfl
  rw [hx, hy, hc] at hsum hcarry hdifference hborrow
  exact ⟨rfl, hx, hy, hsum, hcarry.mpr (by decide), Int.ofNat_inj.mp hdifference,
    hborrow.mpr (by decide)⟩

end Core

end Handheld
