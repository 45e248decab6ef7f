import Handheld.Text.Hex

/-!
# Tokens of JSON text

`nextToken` takes one token off the front of a text, after any blanks.  A number is kept only if it
is a plain natural number, since no other number is ever asked for; the text of a string is kept
unless its escapes name half a surrogate pair, in which case it stands for no text.
`length_of_nextToken` says that a token leaves a shorter text behind.
-/

namespace Handheld

namespace Json

/-- The smallest parts of JSON text. -/
inductive Token
  | openArray
  | closeArray
  | openObject
  | closeObject
  | colon
  | comma
  | null
  | bool (b : Bool)
  /-- A number, with its value if it is a plain natural number. -/
  | number (natural? : Option Nat)
  /-- A string, with its text if it has one. -/
  | string (text? : Option String)
  deriving DecidableEq

/-- The blanks between tokens. -/
def isBlank (c : Char) : Bool :=
  c == ' ' || c == '\t' || c == '\n' || c == '\r'

/-! ### Strings -/

/-- The character that a one-letter escape stands for. -/
def escaped? : Char → Option Char
  | '"' => some '"'
  | '\\' => some '\\'
  | '/' => some '/'
  | 'b' => some '\x08'
  | 'f' => some '\x0C'
  | 'n' => some '\n'
  | 'r' => some '\r'
  | 't' => some '\t'
  | _ => none

/-- The number that four base-sixteen digits stand for. -/
def hexUnit? (a b c d : Char) : Option Nat := do
  let a ← Hex.digitValue? a
  let b ← Hex.digitValue? b
  let c ← Hex.digitValue? c
  let d ← Hex.digitValue? d
  return 4096 * a + 256 * b + 16 * c + d

/-- Read a string up to its closing quote.  The result holds the code points of its characters and
of its escapes, the latter possibly halves of surrogate pairs, in front of the reversed `done`. -/
def scanString (done : List Nat) : List Char → Option (List Nat × List Char)
  | [] => none
  | '"' :: rest => some (done.reverse, rest)
  | '\\' :: 'u' :: a :: b :: c :: d :: rest =>
    match hexUnit? a b c d with
    | some unit => scanString (unit :: done) rest
    | none => none
  | '\\' :: e :: rest =>
    match escaped? e with
    | some c => scanString (c.toNat :: done) rest
    | none => none
  | c :: rest => if c < ' ' then none else scanString (c.toNat :: done) rest

/-- Whether a code point is the first half of a surrogate pair. -/
def isHighSurrogate (n : Nat) : Bool := 0xD800 ≤ n && n < 0xDC00

/-- Whether a code point is the second half of a surrogate pair. -/
def isLowSurrogate (n : Nat) : Bool := 0xDC00 ≤ n && n < 0xE000

/-- The characters of code points in which surrogates stand in pairs. -/
def pairUp? : List Nat → Option (List Char)
  | [] => some []
  | n :: rest =>
    if isLowSurrogate n then none
    else if isHighSurrogate n then
      match rest with
      | m :: rest =>
        if isLowSurrogate m then
          (pairUp? rest).map (Char.ofNat (0x10000 + 0x400 * (n - 0xD800) + (m - 0xDC00)) :: ·)
        else none
      | [] => none
    else (pairUp? rest).map (Char.ofNat n :: ·)

/-! ### Numbers -/

/-- The value of decimal digits. -/
def decimalValue (digits : List Char) : Nat :=
  digits.foldl (fun n c => 10 * n + (c.toNat - '0'.toNat)) 0

/-- At least one digit, and the rest of the text. -/
def scanDigits (cs : List Char) : Option (List Char × List Char) :=
  match cs.takeWhile Char.isDigit with
  | [] => none
  | digits => some (digits, cs.dropWhile Char.isDigit)

/-- The fraction of a number, if there is one: whether there is, and the rest of the text. -/
def scanFraction : List Char → Option (Bool × List Char)
  | '.' :: rest => (scanDigits rest).map fun (_, rest) => (true, rest)
  | cs => some (false, cs)

/-- Digits after an optional sign. -/
def scanSigned : List Char → Option (List Char × List Char)
  | '+' :: rest => scanDigits rest
  | '-' :: rest => scanDigits rest
  | cs => scanDigits cs

/-- The exponent of a number, if there is one: whether there is, and the rest of the text. -/
def scanExponent : List Char → Option (Bool × List Char)
  | 'e' :: rest => (scanSigned rest).map fun (_, rest) => (true, rest)
  | 'E' :: rest => (scanSigned rest).map fun (_, rest) => (true, rest)
  | cs => some (false, cs)

/-- A number without a sign; no digit may follow a leading zero. -/
def scanUnsigned (cs : List Char) : Option (Option Nat × List Char) := do
  let (digits, rest) ← scanDigits cs
  if digits.head? = some '0' ∧ digits.length ≠ 1 then
    none
  else
    let (fraction, rest) ← scanFraction rest
    let (exponent, rest) ← scanExponent rest
    return (if fraction || exponent then none else some (decimalValue digits), rest)

/-- A number. -/
def scanNumber : List Char → Option (Option Nat × List Char)
  | '-' :: rest => (scanUnsigned rest).map fun (_, rest) => (none, rest)
  | cs => scanUnsigned cs

/-! ### Tokens -/

/-- The text after a word that must come first. -/
def afterWord? : List Char → List Char → Option (List Char)
  | [], cs => some cs
  | w :: word, c :: cs => if c = w then afterWord? word cs else none
  | _ :: _, [] => none

/-- The token that begins with a character other than a blank, and the text after it. -/
def tokenAt (c : Char) (rest : List Char) : Option (Token × List Char) :=
  match c with
  | '[' => some (.openArray, rest)
  | ']' => some (.closeArray, rest)
  | '\x7b' => some (.openObject, rest)
  | '\x7d' => some (.closeObject, rest)
  | ':' => some (.colon, rest)
  | ',' => some (.comma, rest)
  | 'n' => (afterWord? ['u', 'l', 'l'] rest).map (Token.null, ·)
  | 't' => (afterWord? ['r', 'u', 'e'] rest).map (Token.bool true, ·)
  | 'f' => (afterWord? ['a', 'l', 's', 'e'] rest).map (Token.bool false, ·)
  | '"' =>
    (scanString [] rest).map fun (points, rest) =>
      (.string ((pairUp? points).map String.ofList), rest)
  | _ => (scanNumber (c :: rest)).map fun (n?, rest) => (.number n?, rest)

/-- What is left of a text: the next token with the text after it, or only blanks. -/
def nextToken (cs : List Char) : Option (Option (Token × List Char)) :=
  match cs.dropWhile isBlank with
  | [] => some none
  | c :: rest => (tokenAt c rest).map some

/-! ### Tokens shorten the text -/

theorem length_of_scanString {done : List Nat} {cs rest : List Char} {points : List Nat}
    (h : scanString done cs = some (points, rest)) : rest.length < cs.length := by
  fun_induction scanString done cs with
  | case1 => simp at h
  | case2 done r => simp at h; simp [h]
  | case3 done a b c d r unit hu ih => have := ih h; simp; omega
  | case4 => simp at h
  | case5 done e r hu c he ih => have := ih h; simp; omega
  | case6 => simp at h
  | case7 => simp at h
  | case8 done c r hq hu he hc ih => have := ih h; simp; omega

theorem length_of_scanDigits {cs digits rest : List Char}
    (h : scanDigits cs = some (digits, rest)) : rest.length < cs.length := by
  cases cs with
  | nil => simp [scanDigits] at h
  | cons c cs =>
    by_cases hc : c.isDigit = true
    · have := (List.dropWhile_suffix (l := cs) Char.isDigit).length_le
      simp [scanDigits, hc] at h
      rw [← h.2]
      simp
      omega
    · simp [scanDigits, hc] at h

theorem length_of_scanSigned {cs digits rest : List Char}
    (h : scanSigned cs = some (digits, rest)) : rest.length < cs.length := by
  unfold scanSigned at h
  split at h
  · have := length_of_scanDigits h; simp; omega
  · have := length_of_scanDigits h; simp; omega
  · exact length_of_scanDigits h

theorem length_of_scanFraction {cs rest : List Char} {b : Bool}
    (h : scanFraction cs = some (b, rest)) : rest.length ≤ cs.length := by
  unfold scanFraction at h
  split at h
  · simp only [Option.map_eq_some_iff] at h
    obtain ⟨⟨ds, r⟩, hd, he⟩ := h
    have := length_of_scanDigits hd
    simp at he
    simp [← he.2]
    omega
  · simp at h; simp [h.2]

theorem length_of_scanExponent {cs rest : List Char} {b : Bool}
    (h : scanExponent cs = some (b, rest)) : rest.length ≤ cs.length := by
  unfold scanExponent at h
  split at h
  · simp only [Option.map_eq_some_iff] at h
    obtain ⟨⟨ds, r⟩, hd, he⟩ := h
    have := length_of_scanSigned hd
    simp at he
    simp [← he.2]
    omega
  · simp only [Option.map_eq_some_iff] at h
    obtain ⟨⟨ds, r⟩, hd, he⟩ := h
    have := length_of_scanSigned hd
    simp at he
    simp [← he.2]
    omega
  · simp at h; simp [h.2]

theorem length_of_scanUnsigned {cs rest : List Char} {n? : Option Nat}
    (h : scanUnsigned cs = some (n?, rest)) : rest.length < cs.length := by
  simp only [scanUnsigned, Option.bind_eq_bind, Option.bind_eq_some_iff] at h
  obtain ⟨⟨digits, r₁⟩, h₁, h⟩ := h
  split at h
  · simp at h
  · simp only [Option.bind_eq_some_iff] at h
    obtain ⟨⟨f, r₂⟩, h₂, ⟨e, r₃⟩, h₃, h⟩ := h
    have l₁ : r₁.length < cs.length := length_of_scanDigits h₁
    have l₂ : r₂.length ≤ r₁.length := length_of_scanFraction h₂
    have l₃ : r₃.length ≤ r₂.length := length_of_scanExponent h₃
    simp at h
    simp [← h.2]
    omega

theorem length_of_scanNumber {cs rest : List Char} {n? : Option Nat}
    (h : scanNumber cs = some (n?, rest)) : rest.length < cs.length := by
  unfold scanNumber at h
  split at h
  · simp only [Option.map_eq_some_iff] at h
    obtain ⟨⟨m, r⟩, hu, he⟩ := h
    have := length_of_scanUnsigned hu
    simp at he
    simp [← he.2]
    omega
  · exact length_of_scanUnsigned h

theorem length_of_afterWord? {word cs rest : List Char}
    (h : afterWord? word cs = some rest) : rest.length ≤ cs.length := by
  fun_induction afterWord? word cs with
  | case1 cs => simp at h; simp [h]
  | case2 word c cs ih => have := ih h; simp; omega
  | case3 => simp at h
  | case4 => simp at h

theorem length_of_tokenAt {c : Char} {cs rest : List Char} {t : Token}
    (h : tokenAt c cs = some (t, rest)) : rest.length ≤ cs.length := by
  unfold tokenAt at h
  split at h
  case h_7 | h_8 | h_9 =>
    simp only [Option.map_eq_some_iff, Prod.mk.injEq] at h
    obtain ⟨r, hr, _, rfl⟩ := h
    exact length_of_afterWord? hr
  case h_10 =>
    simp only [Option.map_eq_some_iff, Prod.mk.injEq] at h
    obtain ⟨⟨points, r⟩, hr, _, rfl⟩ := h
    have := length_of_scanString hr
    simp
    omega
  case h_11 =>
    simp only [Option.map_eq_some_iff, Prod.mk.injEq] at h
    obtain ⟨⟨m, r⟩, hr, _, rfl⟩ := h
    have := length_of_scanNumber hr
    simp at this ⊢
    omega
  all_goals
    simp at h
    simp [h.2]

/-- A token leaves a shorter text behind. -/
theorem length_of_nextToken {cs rest : List Char} {t : Token}
    (h : nextToken cs = some (some (t, rest))) : rest.length < cs.length := by
  have hd := (List.dropWhile_suffix (l := cs) isBlank).length_le
  unfold nextToken at h
  split at h
  · simp at h
  · next c r hc =>
    simp only [Option.map_eq_some_iff, Option.some.injEq] at h
    obtain ⟨⟨t', r'⟩, ht, he⟩ := h
    have := length_of_tokenAt ht
    simp at he
    rw [hc] at hd
    simp [← he.2] at hd ⊢
    omega

end Json

end Handheld
