/-!
# Reading UTF-8 with replacement

`Utf8.decode` reads any bytes as text.  A well-formed sequence gives its character; every longest
beginning of a well-formed sequence that is not continued gives one replacement character, and so
does every byte that cannot begin a sequence.  Overlong forms, surrogates and values past the last
code point are not well-formed: `Utf8.Lead.of?` excludes them by narrowing the range of the second
byte.
-/

namespace Handheld

namespace Utf8

/-- What the first byte of a longer sequence says about the rest. -/
structure Lead where
  /-- The bits of the value that the first byte carries. -/
  value : Nat
  /-- How many bytes follow. -/
  more : Nat
  /-- The least second byte. -/
  low : UInt8 := 0x80
  /-- The greatest second byte. -/
  high : UInt8 := 0xBF

/-- The promise of a first byte, if it can begin a sequence of two bytes or more. -/
def Lead.of? (b : UInt8) : Option Lead :=
  let n := b.toNat
  if n < 0xC2 then none
  else if n < 0xE0 then some { value := n - 0xC0, more := 1 }
  else if n = 0xE0 then some { value := 0, more := 2, low := 0xA0 }
  else if n = 0xED then some { value := 0xD, more := 2, high := 0x9F }
  else if n < 0xF0 then some { value := n - 0xE0, more := 2 }
  else if n = 0xF0 then some { value := 0, more := 3, low := 0x90 }
  else if n < 0xF4 then some { value := n - 0xF0, more := 3 }
  else if n = 0xF4 then some { value := 4, more := 3, high := 0x8F }
  else none

/-- Read at most `more` further bytes, the first of them between `low` and `high`: how many there
are, and the value with their bits appended. -/
def follow (low high : UInt8) : Nat → Nat → List UInt8 → Nat × Nat
  | more + 1, value, b :: rest =>
    if low ≤ b ∧ b ≤ high then
      let (count, value) := follow 0x80 0xBF more (64 * value + b.toNat % 64) rest
      (count + 1, value)
    else (0, value)
  | _, value, _ => (0, value)

/-- The text of any sequence of bytes. -/
def decode : List UInt8 → List Char
  | [] => []
  | b :: rest =>
    if b < 0x80 then Char.ofNat b.toNat :: decode rest
    else
      match Lead.of? b with
      | none => '\uFFFD' :: decode rest
      | some lead =>
        let (count, value) := follow lead.low lead.high lead.more lead.value rest
        (if count = lead.more then Char.ofNat value else '\uFFFD') :: decode (rest.drop count)
termination_by bytes => bytes.length
decreasing_by all_goals (simp only [List.length_cons, List.length_drop]; omega)

end Utf8

end Handheld
