import Handheld.Proofs.Arithmetic.Numerals

/-!
# Arithmetic with binary numbers

A number of several bytes is added with `ADD` for the first byte and `ADC` for all others, and
subtracted with `SUB` and `SBC` (`Core.longhand`).  Each of these takes in the carry that the one
before has left, so the results of the bytes are the bytes of the result (`Core.longhand_add`,
`Core.longhand_sub`).

The console also has two adders for words.  The one for HL does what the long addition of two bytes
does (`Core.execute_addHl`); the one for the stack pointer adds a signed byte, but its flags are
those of the unsigned sum of two bytes (`Alu.addSigned_snd`).  The main statement is
`Core.long_arithmetic`.
-/

namespace Handheld

namespace Core

variable {μ : Type} [Memory μ]

/-! ### Long binary numbers -/

/-- Combine two bytes: the first is loaded into the accumulator, the second is the operand. -/
def combine (s : Core μ) (op : AluOp) (x y : UInt8) : Core μ :=
  ((s.setA x).execute (.aluOperand op) y.toUInt16).1

/-- Combine two numbers byte by byte, the first bytes with one operation and all others with another
one, and keep the cores after every byte. -/
def longhand (s : Core μ) (first next : AluOp) : List UInt8 → List UInt8 → List (Core μ)
  | x :: xs, y :: ys =>
    s.combine first x y :: (s.combine first x y).workThrough (·.combine next) xs ys
  | _, _ => []

/-- The core with a clear carry flag. -/
def withoutCarry (s : Core μ) : Core μ := s.setFlags { s.cpu.regs.f with carry := false }

/-- The second byte and the carry act on the first byte. -/
lemma combine_eq (s : Core μ) (op : AluOp) (x y : UInt8) :
    s.combine op x y = s.setResult (Alu.apply op x y s.cpu.regs.f.carry) := by
  simp only [combine, execute, Word.low_toUInt16]
  rfl

/-- An operation without a carry is the one with a clear carry. -/
lemma combine_withoutCarry (s : Core μ) {op op' : AluOp}
    (hop : ∀ x y c, Alu.apply op x y c = Alu.apply op' x y false) (x y : UInt8) :
    s.combine op x y = s.withoutCarry.combine op' x y := by
  rw [combine_eq, combine_eq, hop]
  rfl

/-- A chain that starts without a carry is a chain that starts with a clear one. -/
lemma longhand_eq (s : Core μ) {first next : AluOp}
    (hfirst : ∀ x y c, Alu.apply first x y c = Alu.apply next x y false) (xs ys : List UInt8) :
    s.longhand first next xs ys = s.withoutCarry.workThrough (·.combine next) xs ys := by
  cases xs with
  | nil => rfl
  | cons x xs =>
    cases ys with
    | nil => rfl
    | cons y ys => rw [longhand, workThrough, combine_withoutCarry s hfirst]

/-- Operations that take in the carry work digit by digit. -/
lemma accumulates_combine {op : AluOp} {σ : Int} (hσ : σ = 1 ∨ σ = -1)
    (hop : op ≠ .cp ∧ ∀ carry, op.carryIn carry = carry)
    (hexact : ∀ x y carry, op.exact x y carry = x + σ * (y + carry.toNat)) :
    Accumulates .binary σ fun (s : Core μ) x y => s.combine op x y where
  sign := hσ
  valid _ _ _ _ _ := trivial
  value s x y _ _ := by
    obtain ⟨hresult, -, -, -, hcarry⟩ := Alu.apply_specified op x y s.cpu.regs.f.carry
    rw [if_neg hop.1, hop.2, hexact] at hresult
    rw [hop.2, hexact] at hcarry
    have hx := x.toNat_lt
    have hy := y.toNat_lt
    have hc := s.cpu.regs.f.carry.toNat_le
    rw [combine_eq]
    change ((Alu.apply op x y s.cpu.regs.f.carry).1.toNat : Int) =
      x.toNat + σ * (y.toNat + s.cpu.regs.f.carry.toNat) -
        σ * 256 * (Alu.apply op x y s.cpu.regs.f.carry).2.carry.toNat
    rw [hresult]
    cases h : (Alu.apply op x y s.cpu.regs.f.carry).2.carry with
    | true =>
      have hout := hcarry.mp h
      rcases hσ with rfl | rfl
      · simp only [Bool.toNat_true]
        omega
      · simp only [Bool.toNat_true]
        omega
    | false =>
      have hin := (not_congr hcarry).mp (Bool.eq_false_iff.mp h)
      simp only [Bool.toNat_false]
      omega

/-- A byte is added. -/
lemma accumulates_adc : Accumulates .binary 1 fun (s : Core μ) x y => s.combine .adc x y :=
  accumulates_combine (.inl rfl) ⟨AluOp.noConfusion, fun _ => rfl⟩ fun x y carry => by
    simp only [AluOp.exact]
    ring

/-- A byte is subtracted. -/
lemma accumulates_sbc : Accumulates .binary (-1) fun (s : Core μ) x y => s.combine .sbc x y :=
  accumulates_combine (.inr rfl) ⟨AluOp.noConfusion, fun _ => rfl⟩ fun x y carry => by
    simp only [AluOp.exact]
    ring

/-- The carry at the end is not the one before the first byte. -/
lemma lastCarry_longhand (s t : Core μ) (first next : AluOp) {xs ys : List UInt8}
    (hlength : xs.length = ys.length) (hne : xs ≠ []) :
    lastCarry s (s.longhand first next xs ys) = lastCarry t (s.longhand first next xs ys) := by
  cases xs with
  | nil => exact absurd rfl hne
  | cons x xs =>
    cases ys with
    | nil => cases hlength
    | cons y ys => rw [longhand, lastCarry_cons, lastCarry_cons]

variable (s : Core μ) {xs ys : List UInt8} (hlength : xs.length = ys.length) (hne : xs ≠ [])

include hlength hne

/-- Long addition. -/
theorem longhand_add :
    let ts := s.longhand .add .adc xs ys
    let exact := Numeral.binary.number xs + Numeral.binary.number ys
    ts.length = xs.length ∧ Numeral.binary.number (results ts) = exact % 256 ^ xs.length ∧
      (lastCarry s ts = true ↔ 256 ^ xs.length ≤ exact) := by
  intro ts exact
  have hts : ts = s.withoutCarry.workThrough (·.combine .adc) xs ys :=
    longhand_eq s (fun _ _ _ => rfl) xs ys
  obtain ⟨hvalue, hcarry⟩ := accumulates_adc.sum s.withoutCarry hlength
    (fun _ _ => trivial) (fun _ _ => trivial)
  rw [← hts] at hvalue hcarry
  rw [lastCarry_longhand s s.withoutCarry .add .adc hlength hne]
  exact ⟨hts ▸ length_workThrough _ _ hlength, hvalue, hcarry⟩

/-- Long subtraction. -/
theorem longhand_sub :
    let ts := s.longhand .sub .sbc xs ys
    ts.length = xs.length ∧
      (Numeral.binary.number (results ts) : Int) =
        (Numeral.binary.number xs - Numeral.binary.number ys) % 256 ^ xs.length ∧
      (lastCarry s ts = true ↔ Numeral.binary.number xs < Numeral.binary.number ys) := by
  intro ts
  have hts : ts = s.withoutCarry.workThrough (·.combine .sbc) xs ys :=
    longhand_eq s (fun _ _ _ => rfl) xs ys
  obtain ⟨hvalue, hcarry⟩ := accumulates_sbc.difference s.withoutCarry hlength
    (fun _ _ => trivial) (fun _ _ => trivial)
  rw [← hts] at hvalue hcarry
  rw [show s.withoutCarry.cpu.regs.f.carry.toNat = 0 from rfl, Nat.cast_zero, sub_zero] at hvalue
  rw [lastCarry_longhand s s.withoutCarry .sub .sbc hlength hne]
  exact ⟨hts ▸ length_workThrough _ _ hlength, hvalue, hcarry⟩

end Core

/-! ### Words -/

namespace Alu

/-- The sum of two words is made of the sum of the low bytes and the sum of the high bytes with the
carry between them. -/
lemma addWords_eq (a v : UInt16) (f : Flags) :
    let lo := add (Word.low a) (Word.low v) false
    let hi := add (Word.high a) (Word.high v) lo.2.carry
    addWords a v f = (Word.join hi.1 lo.1, { f with
      subtract := false, halfCarry := hi.2.halfCarry, carry := hi.2.carry }) := by
  intro lo hi
  have ha := a.toNat_lt
  have hv := v.toNat_lt
  have hlo : (lo.1.toNat : Int) = _ := toNat_add (Word.low a) (Word.low v) false
  have hhi : (hi.1.toNat : Int) = _ := toNat_add (Word.high a) (Word.high v) lo.2.carry
  have hcarry : lo.2.carry.toNat = (a.toNat % 256 + v.toNat % 256) / 256 := by
    have hdecide : lo.2.carry = decide (a.toNat % 256 + v.toNat % 256 + 0 > 255) := by
      rw [← Word.toNat_low, ← Word.toNat_low]
      rfl
    rw [hdecide]
    rcases toNat_decide (a.toNat % 256 + v.toNat % 256 + 0 > 255) with h | h
    · omega
    · omega
  rw [Word.toNat_low, Word.toNat_low, Bool.toNat_false] at hlo
  rw [Word.toNat_high, Word.toNat_high, hcarry] at hhi
  refine Prod.ext ?_ (Flags.mk.injEq .. ▸ ⟨rfl, rfl, ?_, ?_⟩)
  · apply UInt16.toNat_inj.mp
    rw [Word.toNat_join, addWords, UInt16.toNat_add]
    omega
  · refine decide_eq_decide.mpr ?_
    rw [Word.toNat_high, Word.toNat_high, hcarry]
    omega
  · refine decide_eq_decide.mpr ?_
    rw [Word.toNat_high, Word.toNat_high, hcarry]
    omega

/-- The flags of the sum of a word and a signed byte are those of the sum of the low bytes. -/
theorem addSigned_snd (a : UInt16) (e : UInt8) :
    (addSigned a e).2 = {
      halfCarry := (add (Word.low a) e false).2.halfCarry
      carry := (add (Word.low a) e false).2.carry } := by
  refine Flags.mk.injEq .. ▸ ⟨rfl, rfl, ?_, ?_⟩
  · refine decide_eq_decide.mpr ?_
    rw [Word.toNat_low, Bool.toNat_false]
    omega
  · refine decide_eq_decide.mpr ?_
    rw [Word.toNat_low, Bool.toNat_false]
    omega

/-- The sum of a word and a signed byte, as a number. -/
lemma toNat_addSigned (a : UInt16) (e : UInt8) :
    ((addSigned a e).1.toNat : Int) = (a.toNat + e.toInt8.toInt) % 65536 := by
  have he := e.toNat_lt
  have hsigned : e.toInt8.toInt = if 2 * e.toNat < 256 then (e.toNat : Int) else e.toNat - 256 :=
    BitVec.toInt_eq_toNat_cond e.toBitVec
  rw [addSigned, Word.ofSigned, UInt16.toNat_add]
  by_cases h : e.toNat < 128
  · rw [hsigned.trans (if_pos (by omega)), if_pos (UInt8.lt_iff_toNat_lt.mpr h),
      UInt8.toNat_toUInt16]
    omega
  · rw [hsigned.trans (if_neg (by omega)), if_neg (mt UInt8.lt_iff_toNat_lt.mp h)]
    simp only [UInt16.toNat_add, UInt8.toNat_toUInt16, UInt16.toNat_ofNat, Nat.reducePow,
      Nat.reduceMod]
    omega

end Alu

namespace Core

variable {μ : Type} [Memory μ]

/-- Addition of a pair to HL is the long addition of its two bytes. -/
theorem execute_addHl (s : Core μ) (r : Pair) (operand : UInt16) :
    let lo := s.combine .add s.cpu.regs.l (Word.low (s.pair r))
    let hi := lo.combine .adc s.cpu.regs.h (Word.high (s.pair r))
    (s.execute (.addHl r) operand).1 = s.withRegs { s.cpu.regs with
      l := lo.cpu.regs.a
      h := hi.cpu.regs.a
      f := { hi.cpu.regs.f with zero := s.cpu.regs.f.zero, subtract := false } } := by
  intro lo hi
  have hwords := Alu.addWords_eq s.cpu.regs.hl (s.pair r) s.cpu.regs.f
  have hhl : Word.high s.cpu.regs.hl = s.cpu.regs.h ∧ Word.low s.cpu.regs.hl = s.cpu.regs.l :=
    ⟨Word.high_join .., Word.low_join ..⟩
  simp only [hhl.1, hhl.2] at hwords
  simp only [execute, hwords, hi, lo, combine_eq, setPair, Registers.setHl, Word.high_join,
    Word.low_join]
  rfl

/-- Long addition and subtraction of binary numbers, and the two adders for words. -/
theorem long_arithmetic (s : Core μ) :
    (∀ xs ys : List UInt8, xs.length = ys.length → xs ≠ [] →
      let x := Numeral.binary.number xs
      let y := Numeral.binary.number ys
      let sum := s.longhand .add .adc xs ys
      let difference := s.longhand .sub .sbc xs ys
      (sum.length = xs.length ∧
        Numeral.binary.number (results sum) = (x + y) % 256 ^ xs.length ∧
        (lastCarry s sum = true ↔ 256 ^ xs.length ≤ x + y)) ∧
      (difference.length = xs.length ∧
        (Numeral.binary.number (results difference) : Int) = ((x : Int) - y) % 256 ^ xs.length ∧
        (lastCarry s difference = true ↔ x < y))) ∧
    (∀ (r : Pair) (operand : UInt16),
      let lo := s.combine .add s.cpu.regs.l (Word.low (s.pair r))
      let hi := lo.combine .adc s.cpu.regs.h (Word.high (s.pair r))
      (s.execute (.addHl r) operand).1 = s.withRegs { s.cpu.regs with
        l := lo.cpu.regs.a
        h := hi.cpu.regs.a
        f := { hi.cpu.regs.f with zero := s.cpu.regs.f.zero, subtract := false } }) ∧
    ∀ operand : UInt16,
      let e := Word.low operand
      let byte := s.combine .add (Word.low s.cpu.regs.sp) e
      let f : Flags := {
        zero := false
        subtract := false
        halfCarry := byte.cpu.regs.f.halfCarry
        carry := byte.cpu.regs.f.carry }
      ∃ v : UInt16, (v.toNat : Int) = (s.cpu.regs.sp.toNat + e.toInt8.toInt) % 65536 ∧
        (s.execute .addSp operand).1 = s.withRegs { s.cpu.regs with sp := v, f := f } ∧
        (s.execute .loadHlSp operand).1 =
          s.withRegs { s.cpu.regs with h := Word.high v, l := Word.low v, f := f } := by
  refine ⟨fun xs ys hlength hne => ⟨longhand_add s hlength hne, longhand_sub s hlength hne⟩,
    execute_addHl s, fun operand => ?_⟩
  intro e byte f
  have hf : (Alu.addSigned s.cpu.regs.sp e).2 = f := by
    simp only [Alu.addSigned_snd, f, byte, combine_eq]
    rfl
  refine ⟨_, Alu.toNat_addSigned _ _, ?_, ?_⟩
  · rw [← hf]
    rfl
  · rw [← hf]
    rfl

/-- What `long_arithmetic` says about two numbers of two bytes whose sum has a carry and whose
difference has a borrow. -/
theorem long_arithmetic_two_bytes :
    let s := filledWith 0
    let sum := s.longhand .add .adc [0xFF, 0x12] [0x01, 0xF0]
    let difference := s.longhand .sub .sbc [0xFF, 0x12] [0x01, 0xF0]
    Numeral.binary.number [0xFF, 0x12] = 0x12FF ∧ Numeral.binary.number [0x01, 0xF0] = 0xF001 ∧
    Numeral.binary.number (results sum) = 0x0300 ∧ lastCarry s sum = true ∧
    Numeral.binary.number (results difference) = 0x22FE ∧ lastCarry s difference = true := by
  intro s sum difference
  have hx : Numeral.binary.number [0xFF, 0x12] = 0x12FF := rfl
  have hy : Numeral.binary.number [0x01, 0xF0] = 0xF001 := rfl
  obtain ⟨hbytes, -, -⟩ := long_arithmetic s
  obtain ⟨⟨-, hsum, hcarry⟩, -, hdifference, hborrow⟩ :=
    hbytes [0xFF, 0x12] [0x01, 0xF0] rfl (List.cons_ne_nil _ _)
  rw [hx, hy] at hsum hcarry hdifference hborrow
  exact ⟨hx, hy, hsum, hcarry.mpr (by decide), Int.ofNat_inj.mp hdifference,
    hborrow.mpr (by decide)⟩

end Core

end Handheld
