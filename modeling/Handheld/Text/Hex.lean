/-!
# Hexadecimal text

Numbers written in base sixteen with a fixed number of digits, the most significant one first.
`Hex.lower` and `Hex.upper` differ in the letters that they use; both drop what does not fit.
-/

namespace Handheld

namespace Hex

/-- The lower-case digit of a number below sixteen. -/
def lowerDigit (n : Nat) : Char :=
  if n < 10 then Char.ofNat ('0'.toNat + n) else Char.ofNat ('a'.toNat + (n - 10))

/-- The upper-case digit of a number below sixteen. -/
def upperDigit (n : Nat) : Char :=
  if n < 10 then Char.ofNat ('0'.toNat + n) else Char.ofNat ('A'.toNat + (n - 10))

/-- The last `width` base-sixteen digits of `n`, the most significant one first. -/
def digits : Nat → Nat → List Nat
  | 0, _ => []
  | width + 1, n => digits width (n / 16) ++ [n % 16]

/-- The last `width` digits of `n` with the letters `a` to `f`. -/
def lower (width n : Nat) : String :=
  String.ofList ((digits width n).map lowerDigit)

/-- The last `width` digits of `n` with the letters `A` to `F`. -/
def upper (width n : Nat) : String :=
  String.ofList ((digits width n).map upperDigit)

/-- The value of a base-sixteen digit in either case. -/
def digitValue? (c : Char) : Option Nat :=
  if '0' ≤ c ∧ c ≤ '9' then some (c.toNat - '0'.toNat)
  else if 'a' ≤ c ∧ c ≤ 'f' then some (c.toNat - 'a'.toNat + 10)
  else if 'A' ≤ c ∧ c ≤ 'F' then some (c.toNat - 'A'.toNat + 10)
  else none

end Hex

end Handheld
