import Handheld.Proofs.Json.Grammar
import Mathlib.Data.List.Basic

/-!
# Tokens of the grammar

The strings, numbers and words of the grammar are tokens.  `Json.IsToken` says that a text is read
as a token whatever comes next; for a number this must not go on with it, `Json.Apart`.

The main statements are `Spells.isToken`, that a string is read as the text that it stands for,
however this is spelled, and `Spelled.exists_isToken`, that it is read as no other;
`IsNumber.exists_nextToken` for all numbers; and `nextToken_toDigits`, that the digits of a natural
number are read as this number.
-/

namespace Handheld

namespace Json

/-! ### Strings -/

/-- The value of a digit. -/
lemma digitValue?_of_mem {c : Char} {n : Nat} (h : (c, n) ∈ hexDigits) :
    Hex.digitValue? c = some n := by
  have hall : ∀ p ∈ hexDigits, Hex.digitValue? p.1 = some p.2 := by decide
  exact hall (c, n) h

/-- The meaning of a letter after a backslash. -/
lemma escaped?_of_mem {e c : Char} (h : (e, c) ∈ letters) : escaped? e = some c ∧ e ≠ 'u' := by
  have hall : ∀ p ∈ letters, escaped? p.1 = some p.2 ∧ p.1 ≠ 'u' := by decide
  exact hall (e, c) h

/-- Strings are read up to their closing quote. -/
lemma Spelled.scan {body : List Char} {units : List Nat} (h : Spelled body units)
    (done : List Nat) (rest : List Char) :
    scanString done (body ++ '"' :: rest) = some (done.reverse ++ units, rest) := by
  induction h generalizing done with
  | nil => rw [List.nil_append, scanString, List.append_nil]
  | @plain c cs units hcontrol hquote hbackslash hcs ih =>
    have hvisible : ¬ c < ' ' := Char.not_lt.mpr hcontrol
    rw [List.cons_append, scanString.eq_5 _ _ _ hquote (fun _ _ _ _ _ h => absurd h hbackslash)
      (fun _ _ h => absurd h hbackslash), if_neg hvisible, ih, List.reverse_cons,
      List.append_assoc, List.singleton_append]
  | @letter e c cs units hletter hcs ih =>
    obtain ⟨hescaped, hne⟩ := escaped?_of_mem hletter
    rw [List.cons_append, List.cons_append,
      scanString.eq_4 _ _ _ (fun _ _ _ _ _ h => absurd h hne), hescaped]
    simp only
    rw [ih, List.reverse_cons, List.append_assoc, List.singleton_append]
  | @unit a b c d i j k l cs units ha hb hc hd hcs ih =>
    have hunit : hexUnit? a b c d = some (4096 * i + 256 * j + 16 * k + l) := by
      simp only [hexUnit?, digitValue?_of_mem ha, digitValue?_of_mem hb, digitValue?_of_mem hc,
        digitValue?_of_mem hd]
      rfl
    simp only [List.cons_append, scanString, hunit]
    rw [ih, List.reverse_cons, List.append_assoc, List.singleton_append]

/-- The number of a character is not that of a surrogate. -/
lemma toNat_bounds (c : Char) :
    (c.toNat < 0xD800 ∨ 0xE000 ≤ c.toNat) ∧ c.toNat < 0x110000 := by
  have hvalid : c.toNat < 0xD800 ∨ 0xDFFF < c.toNat ∧ c.toNat < 0x110000 := c.valid
  omega

/-- The numbers of a text give the text. -/
lemma Units.pairUp? {units : List Nat} {cs : List Char} (h : Units units cs) :
    pairUp? units = some cs := by
  induction h with
  | nil => rfl
  | @self c units cs hcs ih =>
    obtain ⟨hapart, -⟩ := toNat_bounds c
    have hlow : ¬ isLowSurrogate c.toNat = true := by simp [isLowSurrogate]; omega
    have hhigh : ¬ isHighSurrogate c.toNat = true := by simp [isHighSurrogate]; omega
    rw [Json.pairUp?.eq_def]
    simp only [if_neg hlow, if_neg hhigh]
    rw [ih, Option.map_some, Char.ofNat_toNat]
  | @pair c units cs hlarge hcs ih =>
    obtain ⟨-, hlast⟩ := toNat_bounds c
    generalize hhigh : 0xD800 + (c.toNat - 0x10000) / 0x400 = high
    generalize hlow : 0xDC00 + (c.toNat - 0x10000) % 0x400 = low
    have hnot : ¬ isLowSurrogate high = true := by simp [isLowSurrogate]; omega
    have hfirst : isHighSurrogate high = true := by simp [isHighSurrogate]; omega
    have hsecond : isLowSurrogate low = true := by simp [isLowSurrogate]; omega
    have hsum : 0x10000 + 0x400 * (high - 0xD800) + (low - 0xDC00) = c.toNat := by omega
    simp only [Json.pairUp?, if_neg hnot, if_pos hfirst, if_pos hsecond]
    rw [ih, Option.map_some, hsum, Char.ofNat_toNat]

/-- The numbers of a string are those of characters, or of halves of surrogate pairs. -/
lemma Spelled.lt {body : List Char} {units : List Nat} (h : Spelled body units) :
    ∀ n ∈ units, n < 0x110000 := by
  have hdigits : ∀ p ∈ hexDigits, p.2 < 16 := by decide
  induction h with
  | nil => exact fun n hn => absurd hn List.not_mem_nil
  | @plain c _ _ _ _ _ _ ih => exact List.forall_mem_cons.mpr ⟨(toNat_bounds c).2, ih⟩
  | @letter _ c _ _ _ _ ih => exact List.forall_mem_cons.mpr ⟨(toNat_bounds c).2, ih⟩
  | unit ha hb hc hd _ ih =>
    have hi := hdigits _ ha
    have hj := hdigits _ hb
    have hk := hdigits _ hc
    have hl := hdigits _ hd
    refine List.forall_mem_cons.mpr ⟨?_, ih⟩
    simp only at hi hj hk hl
    omega

/-- The character of a number that is not that of a surrogate. -/
lemma toNat_ofNat_of_apart {n : Nat} (hn : n < 0xD800 ∨ 0xE000 ≤ n) (hlast : n < 0x110000) :
    (Char.ofNat n).toNat = n := by
  have hvalid : n.isValidChar := by
    rcases hn with hlow | hhigh
    · exact .inl hlow
    · exact .inr ⟨by omega, hlast⟩
  rw [Char.ofNat, dif_pos hvalid]
  rfl

/-- Only the numbers of a text give the text. -/
lemma units_of_pairUp? {units : List Nat} {cs : List Char} (hlt : ∀ n ∈ units, n < 0x110000)
    (h : pairUp? units = some cs) : Units units cs := by
  fun_induction pairUp? units generalizing cs with
  | case1 =>
    obtain rfl : [] = cs := Option.some.inj h
    exact .nil
  | case3 high hnot hhigh low rest hlow ih =>
    obtain ⟨-, -, hrest⟩ : high < 0x110000 ∧ low < 0x110000 ∧ ∀ n ∈ rest, n < 0x110000 := by
      simpa using hlt
    obtain ⟨cs', hcs', rfl⟩ := Option.map_eq_some_iff.mp h
    obtain ⟨hfirst, hfirst'⟩ : 0xD800 ≤ high ∧ high < 0xDC00 := by
      simpa [isHighSurrogate] using hhigh
    obtain ⟨hsecond, hsecond'⟩ : 0xDC00 ≤ low ∧ low < 0xE000 := by
      simpa [isLowSurrogate] using hlow
    generalize hsum : 0x10000 + 0x400 * (high - 0xD800) + (low - 0xDC00) = n
    have hn : (Char.ofNat n).toNat = n := toNat_ofNat_of_apart (by omega) (by omega)
    have hpair := Units.pair (c := Char.ofNat n) (by omega) (ih hrest hcs')
    rw [hn] at hpair
    have hhigh' : 0xD800 + (n - 0x10000) / 0x400 = high := by omega
    have hlow' : 0xDC00 + (n - 0x10000) % 0x400 = low := by omega
    rw [hhigh', hlow'] at hpair
    exact hpair
  | case6 n rest hlow hhigh ih =>
    obtain ⟨hn, hrest⟩ := List.forall_mem_cons.mp hlt
    obtain ⟨cs', hcs', rfl⟩ := Option.map_eq_some_iff.mp h
    have hapart : n < 0xD800 ∨ 0xE000 ≤ n := by
      simp [isLowSurrogate, isHighSurrogate] at hlow hhigh
      omega
    have hself := Units.self (c := Char.ofNat n) (ih hrest hcs')
    rw [toNat_ofNat_of_apart hapart hn] at hself
    exact hself
  | _ => cases h

/-- A text that is read as a token, whatever comes next. -/
def IsToken (cs : List Char) (t : Token) : Prop :=
  ∀ rest, nextToken (cs ++ rest) = some (some (t, rest))

/-- A string is a token. -/
theorem Spelled.isToken {body : List Char} {units : List Nat} (h : Spelled body units) :
    IsToken (quoted body) (.string ((pairUp? units).map String.ofList)) := by
  intro rest
  have htext : quoted body ++ rest = '"' :: (body ++ '"' :: rest) := by simp [quoted]
  rw [htext, nextToken]
  simp [isBlank, tokenAt, h.scan]

/-- However a text is spelled, it is read. -/
theorem Spells.isToken {cs : List Char} {text : String} (h : Spells cs text) :
    IsToken cs (.string (some text)) := by
  obtain ⟨body, units, rfl, hbody, hunits⟩ := h
  have htoken := hbody.isToken
  rw [hunits.pairUp?, Option.map_some, String.ofList_toList] at htoken
  exact htoken

/-- A string stands for one text. -/
lemma Spells.unique {cs : List Char} {text text' : String} (h : Spells cs text)
    (h' : Spells cs text') : text = text' := by
  have htokens := (h.isToken []).symm.trans (h'.isToken [])
  simpa using htokens

/-- A string of the grammar is read as the text that it spells, if it spells one. -/
theorem Spelled.exists_isToken {body : List Char} {units : List Nat} (h : Spelled body units) :
    ∃ k, IsToken (quoted body) (.string k) ∧
      ∀ text, k = some text ↔ Spells (quoted body) text := by
  refine ⟨_, h.isToken, fun text => ⟨fun htext => ?_, fun htext => ?_⟩⟩
  · obtain ⟨cs, hcs, rfl⟩ := Option.map_eq_some_iff.mp htext
    refine ⟨body, units, rfl, h, ?_⟩
    rw [String.toList_ofList]
    exact units_of_pairUp? h.lt hcs
  · have htokens := (h.isToken []).symm.trans (htext.isToken [])
    simpa using htokens

/-! ### Numbers -/

/-- A text that does not go on with a number. -/
def Apart (cs : List Char) : Prop :=
  ∀ c ∈ cs.head?, c.isDigit = false ∧ c ≠ '.' ∧ c ≠ 'e' ∧ c ≠ 'E'

/-- Digits are read as far as they go. -/
lemma Digits.scan {ds rest : List Char} (h : Digits ds)
    (hrest : ∀ c ∈ rest.head?, c.isDigit = false) : scanDigits (ds ++ rest) = some (ds, rest) := by
  have htake : rest.takeWhile Char.isDigit = [] := by
    cases rest with
    | nil => rfl
    | cons c cs => simp [hrest c rfl]
  have hdrop : rest.dropWhile Char.isDigit = rest := by
    cases rest with
    | nil => rfl
    | cons c cs => simp [hrest c rfl]
  obtain ⟨hne, hdigits⟩ := h
  rw [scanDigits, List.takeWhile_append_of_pos hdigits, List.dropWhile_append_of_pos hdigits, htake,
    hdrop, List.append_nil]
  cases ds with
  | nil => exact absurd rfl hne
  | cons d ds => rfl

/-- Behind a fraction there is no digit. -/
lemma IsFraction.apart {fraction rest : List Char} (h : IsFraction fraction)
    (hrest : ∀ c ∈ rest.head?, c.isDigit = false) :
    ∀ c ∈ (fraction ++ rest).head?, c.isDigit = false := by
  cases h with
  | absent => exact hrest
  | present hds =>
    intro c hc
    obtain rfl : '.' = c := by simpa using hc
    rfl

/-- Where there is no point, there is no fraction. -/
lemma scanFraction_of_ne {rest : List Char} (h : ∀ c ∈ rest.head?, c ≠ '.') :
    scanFraction rest = some (false, rest) := by
  cases rest with
  | nil => rfl
  | cons c cs => exact scanFraction.eq_2 _ fun _ heq => h c rfl (List.cons.inj heq).1

/-- The fraction of a number is read. -/
lemma IsFraction.scan {fraction : List Char} (h : IsFraction fraction) :
    ∃ found, ∀ rest, (∀ c ∈ rest.head?, c.isDigit = false ∧ c ≠ '.') →
      scanFraction (fraction ++ rest) = some (found, rest) := by
  cases h with
  | absent => exact ⟨false, fun rest hrest => scanFraction_of_ne fun c hc => (hrest c hc).2⟩
  | present hds =>
    refine ⟨true, fun rest hrest => ?_⟩
    rw [List.cons_append, scanFraction, hds.scan fun c hc => (hrest c hc).1]
    rfl

/-- Behind an exponent there is neither a digit nor a fraction. -/
lemma IsExponent.apart {exponent rest : List Char} (h : IsExponent exponent)
    (hrest : Apart rest) : ∀ c ∈ (exponent ++ rest).head?, c.isDigit = false ∧ c ≠ '.' := by
  cases h with
  | absent => exact fun c hc => ⟨(hrest c hc).1, (hrest c hc).2.1⟩
  | @present e sign ds he hsign hds =>
    intro c hc
    obtain rfl : e = c := by simpa using hc
    rcases he with rfl | rfl
    · decide
    · decide

/-- Digits after a sign are read. -/
lemma Digits.scanSigned {sign ds rest : List Char}
    (hsign : sign = [] ∨ sign = ['+'] ∨ sign = ['-']) (h : Digits ds)
    (hrest : ∀ c ∈ rest.head?, c.isDigit = false) :
    scanSigned (sign ++ ds ++ rest) = some (ds, rest) := by
  rcases hsign with rfl | rfl | rfl
  · have hscan := h.scan hrest
    cases ds with
    | nil => exact absurd rfl h.1
    | cons d ds =>
      have hdigit := h.2 d List.mem_cons_self
      have hplus : d ≠ '+' := by
        rintro rfl
        cases hdigit
      have hminus : d ≠ '-' := by
        rintro rfl
        cases hdigit
      rw [List.nil_append, ← hscan]
      exact scanSigned.eq_3 _ (fun _ h => hplus (List.cons.inj h).1)
        (fun _ h => hminus (List.cons.inj h).1)
  · exact h.scan hrest
  · exact h.scan hrest

/-- Behind a number that stands apart there is no exponent. -/
lemma scanExponent_of_apart {rest : List Char} (h : Apart rest) :
    scanExponent rest = some (false, rest) := by
  cases rest with
  | nil => rfl
  | cons c cs =>
    exact scanExponent.eq_3 _ (fun _ heq => (h c rfl).2.2.1 (List.cons.inj heq).1)
      (fun _ heq => (h c rfl).2.2.2 (List.cons.inj heq).1)

/-- The exponent of a number is read. -/
lemma IsExponent.scan {exponent : List Char} (h : IsExponent exponent) :
    ∃ found, ∀ rest, Apart rest → scanExponent (exponent ++ rest) = some (found, rest) := by
  cases h with
  | absent => exact ⟨false, fun rest hrest => scanExponent_of_apart hrest⟩
  | @present e sign ds he hsign hds =>
    refine ⟨true, fun rest hrest => ?_⟩
    have hscan := hds.scanSigned hsign fun c hc => (hrest c hc).1
    rcases he with rfl | rfl
    · rw [List.cons_append, scanExponent, hscan]
      rfl
    · rw [List.cons_append, scanExponent, hscan]
      rfl

/-- The parts of a number are read one after another. -/
lemma scanUnsigned_eq {whole fraction exponent rest : List Char} {f e : Bool}
    (hwhole : Digits whole) (hzero : whole.head? = some '0' → whole = ['0'])
    (hapart : ∀ c ∈ (fraction ++ (exponent ++ rest)).head?, c.isDigit = false)
    (hfraction : scanFraction (fraction ++ (exponent ++ rest)) = some (f, exponent ++ rest))
    (hexponent : scanExponent (exponent ++ rest) = some (e, rest)) :
    scanUnsigned (whole ++ (fraction ++ (exponent ++ rest))) =
      some (if f || e then none else some (decimalValue whole), rest) := by
  have hleading : ¬ (whole.head? = some '0' ∧ whole.length ≠ 1) := by
    rintro ⟨hhead, hlength⟩
    exact hlength (by rw [hzero hhead]; rfl)
  simp only [scanUnsigned, hwhole.scan hapart, Option.bind_eq_bind, Option.bind_some,
    if_neg hleading, hfraction, hexponent]
  rfl

/-- A number without a sign is read. -/
lemma exists_scanUnsigned {whole fraction exponent : List Char} (hwhole : Digits whole)
    (hzero : whole.head? = some '0' → whole = ['0']) (hfraction : IsFraction fraction)
    (hexponent : IsExponent exponent) : ∃ n?, ∀ rest, Apart rest →
      scanUnsigned (whole ++ (fraction ++ (exponent ++ rest))) = some (n?, rest) := by
  obtain ⟨f, hf⟩ := hfraction.scan
  obtain ⟨e, he⟩ := hexponent.scan
  refine ⟨if f || e then none else some (decimalValue whole), fun rest hrest => ?_⟩
  have hbehind := hexponent.apart hrest
  exact scanUnsigned_eq hwhole hzero (hfraction.apart fun c hc => (hbehind c hc).1)
    (hf _ hbehind) (he _ hrest)

/-- What begins with a sign or a digit is read as a number. -/
lemma nextToken_number {c : Char} (hc : c = '-' ∨ c.isDigit = true) {cs rest : List Char}
    {n? : Option Nat} (hscan : scanNumber (c :: cs) = some (n?, rest)) :
    nextToken (c :: cs) = some (some (.number n?, rest)) := by
  have hne (d : Char) (hd : ¬ (d = '-' ∨ d.isDigit = true)) : c ≠ d := by
    rintro rfl
    exact hd hc
  have hblank : isBlank c = false := by
    simp [isBlank, hne ' ' (by decide), hne '\t' (by decide), hne '\n' (by decide),
      hne '\r' (by decide)]
  have htoken : tokenAt c cs = some (.number n?, rest) := by
    rw [tokenAt.eq_11 c cs (hne _ (by decide)) (hne _ (by decide)) (hne _ (by decide))
      (hne _ (by decide)) (hne _ (by decide)) (hne _ (by decide)) (hne _ (by decide))
      (hne _ (by decide)) (hne _ (by decide)) (hne _ (by decide)), hscan]
    rfl
  simp only [nextToken, List.dropWhile_cons, hblank, Bool.false_eq_true, if_false, htoken,
    Option.map_some]

/-- A digit at the front of a number is not a sign. -/
lemma Digits.scanNumber_eq {whole rest : List Char} (h : Digits whole) :
    scanNumber (whole ++ rest) = scanUnsigned (whole ++ rest) := by
  obtain ⟨hne, hdigits⟩ := h
  cases whole with
  | nil => exact absurd rfl hne
  | cons d ds =>
    have hdigit := hdigits d List.mem_cons_self
    refine scanNumber.eq_2 _ fun _ h => ?_
    obtain rfl : d = '-' := (List.cons.inj h).1
    cases hdigit

/-- A number is read. -/
theorem IsNumber.exists_nextToken {cs : List Char} (h : IsNumber cs) : ∃ n?, ∀ rest,
    Apart rest → nextToken (cs ++ rest) = some (some (.number n?, rest)) := by
  obtain @⟨sign, whole, fraction, exponent, hsign, hwhole, hzero, hfraction, hexponent⟩ := h
  obtain ⟨n?, hn⟩ := exists_scanUnsigned hwhole hzero hfraction hexponent
  simp only [List.append_assoc]
  rcases hsign with rfl | rfl
  · refine ⟨n?, fun rest hrest => ?_⟩
    have hscan := hn rest hrest
    rw [← hwhole.scanNumber_eq] at hscan
    obtain ⟨hne, hdigits⟩ := hwhole
    cases whole with
    | nil => exact absurd rfl hne
    | cons d ds => exact nextToken_number (.inr (hdigits d List.mem_cons_self)) hscan
  · refine ⟨none, fun rest hrest => ?_⟩
    rw [List.singleton_append]
    refine nextToken_number (.inl rfl) ?_
    rw [scanNumber, hn rest hrest]
    rfl

/-- Only zero begins with a zero. -/
lemma head?_toDigits {n : Nat} (h : 0 < n) : (Nat.toDigits 10 n).head? ≠ some '0' := by
  induction n using Nat.strongRecOn with
  | ind n ih =>
    rcases Nat.lt_or_ge n 10 with hlt | hle
    · rw [Nat.toDigits_of_lt_base hlt, List.head?_cons, Ne, Option.some.injEq,
        Nat.digitChar_eq_zero]
      exact Nat.ne_of_gt h
    · rw [Nat.toDigits_of_base_le (by decide) hle, List.head?_append_of_ne_nil _ Nat.toDigits_ne_nil]
      exact ih (n / 10) (by omega) (by omega)

/-- The digits of a natural number are read as this number. -/
theorem nextToken_toDigits (n : Nat) {rest : List Char} (hrest : Apart rest) :
    nextToken (Nat.toDigits 10 n ++ rest) = some (some (.number (some n), rest)) := by
  have hdigits : Digits (Nat.toDigits 10 n) :=
    ⟨Nat.toDigits_ne_nil, fun c hc => Nat.isDigit_of_mem_toDigits (by decide) (by decide) hc⟩
  have hvalue : decimalValue (Nat.toDigits 10 n) = n :=
    Nat.ofDigitChars_toDigits (by decide) (by decide)
  have hzero : (Nat.toDigits 10 n).head? = some '0' → Nat.toDigits 10 n = ['0'] := by
    intro hhead
    obtain rfl : n = 0 := Nat.eq_zero_of_not_pos fun hpos => head?_toDigits hpos hhead
    rfl
  have hscan : scanNumber (Nat.toDigits 10 n ++ rest) = some (some n, rest) := by
    have hparts : scanUnsigned (Nat.toDigits 10 n ++ ([] ++ ([] ++ rest))) =
        some (if false || false then none else some (decimalValue (Nat.toDigits 10 n)), rest) :=
      scanUnsigned_eq hdigits hzero (fun c hc => (hrest c hc).1)
        (scanFraction_of_ne fun c hc => (hrest c hc).2.1) (scanExponent_of_apart hrest)
    rw [hvalue] at hparts
    rw [hdigits.scanNumber_eq]
    exact hparts
  cases hcons : Nat.toDigits 10 n with
  | nil => exact absurd hcons Nat.toDigits_ne_nil
  | cons d ds =>
    rw [hcons] at hdigits hscan
    exact nextToken_number (.inr (hdigits.2 d List.mem_cons_self)) hscan

/-! ### Blanks -/

/-- Blanks in front of a token mean nothing. -/
lemma Blanks.nextToken {blanks : List Char} (h : Blanks blanks) (cs : List Char) :
    nextToken (blanks ++ cs) = nextToken cs := by
  rw [Json.nextToken, Json.nextToken, List.dropWhile_append_of_pos h]

/-- A text of blanks has no token. -/
lemma Blanks.nextToken_self {blanks : List Char} (h : Blanks blanks) :
    Json.nextToken blanks = some none := by
  have hempty := h.nextToken []
  rw [List.append_nil] at hempty
  exact hempty

/-- Behind a number there may be blanks. -/
lemma Blanks.apart {blanks rest : List Char} (h : Blanks blanks) (hrest : Apart rest) :
    Apart (blanks ++ rest) := by
  cases blanks with
  | nil => exact hrest
  | cons c cs =>
    have hblank : isBlank c = true := h c List.mem_cons_self
    intro d hd
    obtain rfl : c = d := by simpa using hd
    simp only [isBlank, Bool.or_eq_true, beq_iff_eq] at hblank
    rcases hblank with ((rfl | rfl) | rfl) | rfl
    all_goals decide

end Json

end Handheld
