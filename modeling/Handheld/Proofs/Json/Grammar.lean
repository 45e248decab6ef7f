import Handheld.Json.Token

/-!
# The grammar of JSON text

`Json.IsJson` is the grammar of values, without a word about how they are read: `Json.IsNumber` and
`Json.Spelled` are the grammars of numbers and of strings, and arrays and objects are lists of
values with blanks around them, `Json.Item` and `Json.Member`.

A string may spell a character in several ways.  `Json.Spelled` relates it to numbers: those of the
characters that stand for themselves, and those that the escapes give.  `Json.Units` says which
numbers make up a text, since an escape gives at most sixteen bits and larger characters need two;
`Json.Spells` puts both together.
-/

namespace Handheld

namespace Json

/-- A text of blanks. -/
def Blanks (cs : List Char) : Prop := ∀ c ∈ cs, isBlank c = true

/-! ### Strings -/

/-- The digits of base sixteen, in either case, with their values. -/
def hexDigits : List (Char × Nat) :=
  "0123456789abcdef".toList.zipIdx ++ "ABCDEF".toList.zipIdx 10

/-- The letters that follow a backslash, with the characters that they stand for. -/
def letters : List (Char × Char) :=
  [('"', '"'), ('\\', '\\'), ('/', '/'), ('b', '\x08'), ('f', '\x0C'), ('n', '\n'), ('r', '\r'),
    ('t', '\t')]

/-- The text between the quotes of a string, and the numbers of the characters that it spells. -/
inductive Spelled : List Char → List Nat → Prop
  | nil : Spelled [] []
  /-- A character that stands for itself. -/
  | plain {c : Char} {cs : List Char} {units : List Nat} (hcontrol : ' ' ≤ c) (hquote : c ≠ '"')
      (hbackslash : c ≠ '\\') (hcs : Spelled cs units) : Spelled (c :: cs) (c.toNat :: units)
  /-- An escape of one letter. -/
  | letter {e c : Char} {cs : List Char} {units : List Nat} (hletter : (e, c) ∈ letters)
      (hcs : Spelled cs units) : Spelled ('\\' :: e :: cs) (c.toNat :: units)
  /-- An escape of four digits. -/
  | unit {a b c d : Char} {i j k l : Nat} {cs : List Char} {units : List Nat}
      (ha : (a, i) ∈ hexDigits) (hb : (b, j) ∈ hexDigits) (hc : (c, k) ∈ hexDigits)
      (hd : (d, l) ∈ hexDigits) (hcs : Spelled cs units) :
      Spelled ('\\' :: 'u' :: a :: b :: c :: d :: cs)
        ((4096 * i + 256 * j + 16 * k + l) :: units)

/-- The numbers that a text is spelled with: each character with its own, or a large one with those
of two surrogates. -/
inductive Units : List Nat → List Char → Prop
  | nil : Units [] []
  | self {c : Char} {units : List Nat} {cs : List Char} (hcs : Units units cs) :
      Units (c.toNat :: units) (c :: cs)
  | pair {c : Char} {units : List Nat} {cs : List Char} (hlarge : 0x10000 ≤ c.toNat)
      (hcs : Units units cs) :
      Units ((0xD800 + (c.toNat - 0x10000) / 0x400) ::
        (0xDC00 + (c.toNat - 0x10000) % 0x400) :: units) (c :: cs)

/-- A string with its quotes. -/
def quoted (body : List Char) : List Char := '"' :: (body ++ ['"'])

/-- A string with its quotes, and the text that it stands for. -/
def Spells (cs : List Char) (text : String) : Prop :=
  ∃ body units, cs = quoted body ∧ Spelled body units ∧ Units units text.toList

/-! ### Numbers -/

/-- At least one decimal digit. -/
def Digits (ds : List Char) : Prop := ds ≠ [] ∧ ∀ c ∈ ds, c.isDigit = true

/-- The fraction of a number, if there is one. -/
inductive IsFraction : List Char → Prop
  | absent : IsFraction []
  | present {ds : List Char} (hds : Digits ds) : IsFraction ('.' :: ds)

/-- The exponent of a number, if there is one. -/
inductive IsExponent : List Char → Prop
  | absent : IsExponent []
  | present {e : Char} {sign ds : List Char} (he : e = 'e' ∨ e = 'E')
      (hsign : sign = [] ∨ sign = ['+'] ∨ sign = ['-']) (hds : Digits ds) :
      IsExponent (e :: (sign ++ ds))

/-- A number.  No digit follows a leading zero. -/
inductive IsNumber : List Char → Prop
  | mk {sign whole fraction exponent : List Char} (hsign : sign = [] ∨ sign = ['-'])
      (hwhole : Digits whole) (hzero : whole.head? = some '0' → whole = ['0'])
      (hfraction : IsFraction fraction) (hexponent : IsExponent exponent) :
      IsNumber (sign ++ (whole ++ (fraction ++ exponent)))

/-! ### Values -/

/-- A text with blanks around it. -/
structure Item where
  before : List Char
  text : List Char
  after : List Char

namespace Item

/-- The text with its blanks. -/
def full (i : Item) : List Char := i.before ++ (i.text ++ i.after)

/-- The blanks are blank. -/
structure Blank (i : Item) : Prop where
  before : Blanks i.before
  after : Blanks i.after

end Item

/-- A member of an object. -/
structure Member where
  /-- The key with its quotes. -/
  key : Item
  value : Item

namespace Member

/-- The key and the value with a colon between them. -/
def full (m : Member) : List Char := m.key.full ++ ':' :: m.value.full

/-- The blanks are blank. -/
structure Blank (m : Member) : Prop where
  key : m.key.Blank
  value : m.value.Blank

end Member

/-- Texts with commas between them. -/
def commas (texts : List (List Char)) : List Char := [','].intercalate texts

/-- An array of at least one item. -/
def arrayText (items : List Item) : List Char := '[' :: (commas (items.map Item.full) ++ [']'])

/-- An object of at least one member. -/
def objectText (members : List Member) : List Char :=
  '\x7b' :: (commas (members.map Member.full) ++ ['\x7d'])

/-- A JSON value, without blanks around it. -/
inductive IsJson : List Char → Prop
  | null : IsJson "null".toList
  | true : IsJson "true".toList
  | false : IsJson "false".toList
  | number {cs : List Char} (hnumber : IsNumber cs) : IsJson cs
  | string {body : List Char} {units : List Nat} (hbody : Spelled body units) :
      IsJson (quoted body)
  | emptyArray {blanks : List Char} (hblanks : Blanks blanks) : IsJson ('[' :: (blanks ++ [']']))
  | array {items : List Item} (hne : items ≠ []) (hblank : ∀ i ∈ items, i.Blank)
      (hitems : ∀ i ∈ items, IsJson i.text) : IsJson (arrayText items)
  | emptyObject {blanks : List Char} (hblanks : Blanks blanks) :
      IsJson ('\x7b' :: (blanks ++ ['\x7d']))
  | object {members : List Member} (hne : members ≠ []) (hblank : ∀ m ∈ members, m.Blank)
      (hkeys : ∀ m ∈ members, ∃ body units, m.key.text = quoted body ∧ Spelled body units)
      (hvalues : ∀ m ∈ members, IsJson m.value.text) : IsJson (objectText members)

end Json

end Handheld
