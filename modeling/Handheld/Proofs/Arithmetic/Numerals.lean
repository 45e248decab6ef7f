import Handheld.Proofs.Arithmetic.Accumulator
import Mathlib.Data.Nat.Digits.Defs
import Mathlib.Data.Nat.Digits.Lemmas
import Mathlib.Tactic.LinearCombination
import Mathlib.Tactic.Ring

/-!
# Long numbers

A number of several bytes is worked through byte by byte, the least significant first, and every
byte takes in the carry of the one before (`Core.workThrough`).  How bytes are read as digits is a
`Numeral`: binary with every byte for a digit, or decimal with two digits in a byte.

That one byte is added or subtracted exactly, with the carries before and behind counted, is
`Core.Accumulates`.  Then so are all the bytes together (`Core.Accumulates.number_results`), and the
results are those of the numbers modulo a power of the base (`Core.Accumulates.sum`,
`Core.Accumulates.difference`).
-/

namespace Handheld

/-- A way to read bytes as digits of a number. -/
structure Numeral where
  base : Nat
  /-- The bytes that are digits. -/
  Valid : UInt8 → Prop
  /-- The value of a digit. -/
  value : UInt8 → Nat
  value_lt : ∀ x, Valid x → value x < base

namespace Numeral

/-- Every byte is a digit. -/
def binary : Numeral where
  base := 256
  Valid _ := True
  value x := x.toNat
  value_lt x _ := x.toNat_lt

/-- Two decimal digits in a byte, one in each nibble. -/
def decimal : Numeral where
  base := 100
  Valid x := x.toNat / 16 ≤ 9 ∧ x.toNat % 16 ≤ 9
  value x := 10 * (x.toNat / 16) + x.toNat % 16
  value_lt x hx := by omega

/-- The number with given digits, the least significant first. -/
def number (N : Numeral) (xs : List UInt8) : Nat := Nat.ofDigits N.base (xs.map N.value)

lemma number_nil (N : Numeral) : N.number [] = 0 := rfl

lemma number_cons (N : Numeral) (x : UInt8) (xs : List UInt8) :
    N.number (x :: xs) = N.value x + N.base * N.number xs := by
  simp [number, Nat.ofDigits_cons]

/-- With `n` digits one counts up to the power of the base. -/
lemma number_lt (N : Numeral) {xs : List UInt8} (hxs : ∀ x ∈ xs, N.Valid x) :
    N.number xs < N.base ^ xs.length := by
  induction xs with
  | nil => simp [number_nil]
  | cons x xs ih =>
    have hx := N.value_lt x (hxs x List.mem_cons_self)
    have hrest := ih fun y hy => hxs y (List.mem_cons_of_mem x hy)
    rw [number_cons, List.length_cons, pow_succ]
    nlinarith

end Numeral

namespace Core

variable {μ : Type}

/-! ### One digit after the other -/

/-- Combine the digits of two numbers, and keep the cores after every digit. -/
def workThrough (s : Core μ) (digit : Core μ → UInt8 → UInt8 → Core μ) :
    List UInt8 → List UInt8 → List (Core μ)
  | x :: xs, y :: ys => digit s x y :: (digit s x y).workThrough digit xs ys
  | _, _ => []

/-- What was left in the accumulator each time. -/
def results (ts : List (Core μ)) : List UInt8 := ts.map (·.cpu.regs.a)

/-- The carry that is left at the end. -/
def lastCarry (s : Core μ) (ts : List (Core μ)) : Bool := (ts.getLastD s).cpu.regs.f.carry

lemma lastCarry_cons (s t : Core μ) (ts : List (Core μ)) :
    lastCarry s (t :: ts) = lastCarry t ts := by
  rw [lastCarry, List.getLastD_cons, lastCarry]

/-- There is a core for every digit. -/
lemma length_workThrough (s : Core μ) (digit : Core μ → UInt8 → UInt8 → Core μ)
    {xs ys : List UInt8} (hlength : xs.length = ys.length) :
    (s.workThrough digit xs ys).length = xs.length := by
  induction xs generalizing s ys with
  | nil => rfl
  | cons x xs ih =>
    cases ys with
    | nil => cases hlength
    | cons y ys => exact congrArg (· + 1) (ih _ (Nat.succ.inj hlength))

/-- What every digit leaves behind holds of all these cores. -/
lemma forall_workThrough {valid : UInt8 → Prop} {P : Core μ → Prop}
    {digit : Core μ → UInt8 → UInt8 → Core μ}
    (hdigit : ∀ s x y, valid x → valid y → P (digit s x y)) (s : Core μ) {xs ys : List UInt8}
    (hxs : ∀ x ∈ xs, valid x) (hys : ∀ y ∈ ys, valid y) :
    ∀ t ∈ s.workThrough digit xs ys, P t := by
  induction xs generalizing s ys with
  | nil => exact fun _ ht => nomatch ht
  | cons x xs ih =>
    cases ys with
    | nil => exact fun _ ht => nomatch ht
    | cons y ys =>
      obtain ⟨hx, hxs⟩ := List.forall_mem_cons.mp hxs
      obtain ⟨hy, hys⟩ := List.forall_mem_cons.mp hys
      exact List.forall_mem_cons.mpr ⟨hdigit s x y hx hy, ih _ hxs hys⟩

/-- A digit is added with `σ = 1` and subtracted with `σ = -1`.  The carry before counts for one,
and the carry behind for a whole base. -/
structure Accumulates (N : Numeral) (σ : Int) (digit : Core μ → UInt8 → UInt8 → Core μ) :
    Prop where
  sign : σ = 1 ∨ σ = -1
  valid : ∀ s x y, N.Valid x → N.Valid y → N.Valid (digit s x y).cpu.regs.a
  value : ∀ s x y, N.Valid x → N.Valid y →
    (N.value (digit s x y).cpu.regs.a : Int) =
      N.value x + σ * (N.value y + s.cpu.regs.f.carry.toNat) -
        σ * N.base * (digit s x y).cpu.regs.f.carry.toNat

namespace Accumulates

variable {N : Numeral} {σ : Int} {digit : Core μ → UInt8 → UInt8 → Core μ}

/-- What holds of every digit holds of the numbers: the last carry counts for a power of the
base. -/
theorem number_results (hdigit : Accumulates N σ digit) (s : Core μ) {xs ys : List UInt8}
    (hlength : xs.length = ys.length) (hxs : ∀ x ∈ xs, N.Valid x) (hys : ∀ y ∈ ys, N.Valid y) :
    let ts := s.workThrough digit xs ys
    (N.number (results ts) : Int) = N.number xs + σ * (N.number ys + s.cpu.regs.f.carry.toNat) -
      σ * N.base ^ xs.length * (lastCarry s ts).toNat := by
  induction xs generalizing s ys with
  | nil =>
    obtain rfl := List.length_eq_zero_iff.mp hlength.symm
    simp [workThrough, results, lastCarry, Numeral.number_nil]
  | cons x xs ih =>
    cases ys with
    | nil => cases hlength
    | cons y ys =>
      obtain ⟨hx, hxs⟩ := List.forall_mem_cons.mp hxs
      obtain ⟨hy, hys⟩ := List.forall_mem_cons.mp hys
      have hfirst := hdigit.value s x y hx hy
      have hrest := ih (digit s x y) (Nat.succ.inj hlength) hxs hys
      simp only [workThrough, results, List.map_cons, Numeral.number_cons, lastCarry_cons,
        List.length_cons, Nat.cast_add, Nat.cast_mul] at hrest ⊢
      linear_combination hfirst + N.base * hrest

/-- The digits are those of the exact result, as far as there are digits, and there is a carry at
the end if the exact result has no such digits. -/
lemma exact_results (hdigit : Accumulates N σ digit) (s : Core μ) {xs ys : List UInt8}
    (hlength : xs.length = ys.length) (hxs : ∀ x ∈ xs, N.Valid x) (hys : ∀ y ∈ ys, N.Valid y) :
    let ts := s.workThrough digit xs ys
    let exact : Int := N.number xs + σ * (N.number ys + s.cpu.regs.f.carry.toNat)
    (N.number (results ts) : Int) = exact % N.base ^ xs.length ∧
      (lastCarry s ts = true ↔ exact < 0 ∨ N.base ^ xs.length ≤ exact) := by
  intro ts exact
  have hvalue := hdigit.number_results s hlength hxs hys
  have hvalid : ∀ x ∈ results ts, N.Valid x :=
    List.forall_mem_map.mpr (forall_workThrough hdigit.valid s hxs hys)
  have hlt : (N.number (results ts) : Int) < N.base ^ xs.length := by
    have h := N.number_lt hvalid
    rw [results, List.length_map, length_workThrough s digit hlength] at h
    exact_mod_cast h
  have hexact : exact = N.number (results ts) +
      N.base ^ xs.length * (σ * (lastCarry s ts).toNat) := by
    linear_combination -hvalue
  refine ⟨?_, ?_⟩
  · rw [hexact, Int.add_mul_emod_self_left, Int.emod_eq_of_lt (Int.natCast_nonneg _) hlt]
  · -- Without a carry the exact result is the number of the digits, otherwise it is a power away.
    cases hcarry : lastCarry s ts with
    | false =>
      rw [hcarry, Bool.toNat_false, Nat.cast_zero, mul_zero, mul_zero, add_zero] at hexact
      simp only [Bool.false_eq_true, false_iff]
      omega
    | true =>
      rw [hcarry, Bool.toNat_true, Nat.cast_one, mul_one] at hexact
      rcases hdigit.sign with rfl | rfl
      · simp only [true_iff]
        omega
      · simp only [true_iff]
        omega

variable (s : Core μ) {xs ys : List UInt8} (hlength : xs.length = ys.length)
  (hxs : ∀ x ∈ xs, N.Valid x) (hys : ∀ y ∈ ys, N.Valid y)

include hlength hxs hys

/-- The sum of two numbers and a carry. -/
theorem sum (hdigit : Accumulates N 1 digit) :
    let ts := s.workThrough digit xs ys
    let exact := N.number xs + N.number ys + s.cpu.regs.f.carry.toNat
    N.number (results ts) = exact % N.base ^ xs.length ∧
      (lastCarry s ts = true ↔ N.base ^ xs.length ≤ exact) := by
  intro ts exact
  obtain ⟨hvalue, hcarry⟩ := hdigit.exact_results s hlength hxs hys
  rw [one_mul, ← add_assoc] at hvalue hcarry
  refine ⟨mod_cast hvalue, hcarry.trans ?_⟩
  rw [or_iff_right (by omega)]
  exact_mod_cast Iff.rfl

/-- The difference of two numbers and a carry. -/
theorem difference (hdigit : Accumulates N (-1) digit) :
    let ts := s.workThrough digit xs ys
    (N.number (results ts) : Int) =
        (N.number xs - N.number ys - s.cpu.regs.f.carry.toNat) % N.base ^ xs.length ∧
      (lastCarry s ts = true ↔ N.number xs < N.number ys + s.cpu.regs.f.carry.toNat) := by
  intro ts
  obtain ⟨hvalue, hcarry⟩ := hdigit.exact_results s hlength hxs hys
  rw [neg_one_mul, ← sub_eq_add_neg] at hvalue hcarry
  have hx : (N.number xs : Int) < N.base ^ xs.length := mod_cast N.number_lt hxs
  refine ⟨by rw [sub_sub]; exact hvalue, hcarry.trans ?_⟩
  rw [or_iff_left (by omega)]
  omega

end Accumulates

end Core

end Handheld
