import Handheld.Json.Token

/-!
# JSON values

`Value.read?` reads a text that consists of one JSON value and blanks.  A stack of open arrays and
objects takes the place of recursion: `Reader.step` moves from one `Reader` to the next with each
token, and `Reader.result?` is the value if the text may end.  Members of objects keep their order,
and a key may occur more than once; it is for the user of a value to object.
-/

namespace Handheld

namespace Json

/-- A JSON value.  Numbers and strings carry what their tokens carry. -/
inductive Value
  | null
  | bool (b : Bool)
  | number (natural? : Option Nat)
  | string (text? : Option String)
  | array (items : List Value)
  | object (members : List (Option String × Value))

/-- The members of an object in the order of the text; a key may be without a text. -/
abbrev Members := List (Option String × Value)

/-- An array or object that has been opened but not closed, with its parts so far in reverse
order. -/
inductive Frame
  | array (done : List Value)
  /-- The key belongs to the value that comes next. -/
  | object (done : Members) (key : Option String)

/-- What may come next, inside the open arrays and objects. -/
inductive Reader
  /-- A value. -/
  | value (stack : List Frame)
  /-- A value, or the end of the array. -/
  | firstItem (stack : List Frame)
  /-- A key, or the end of the object. -/
  | firstKey (stack : List Frame)
  /-- A key, after the members so far. -/
  | key (done : Members) (stack : List Frame)
  /-- A colon. -/
  | colon (stack : List Frame)
  /-- Whatever may follow a value. -/
  | after (v : Value) (stack : List Frame)

namespace Reader

/-- The first token of a value. -/
def begin (stack : List Frame) : Token → Option Reader
  | .openArray => some (firstItem stack)
  | .openObject => some (firstKey stack)
  | .null => some (after .null stack)
  | .bool b => some (after (.bool b) stack)
  | .number n? => some (after (.number n?) stack)
  | .string s? => some (after (.string s?) stack)
  | _ => none

/-- Take a token. -/
def step : Reader → Token → Option Reader
  | value stack, t => begin stack t
  | firstItem stack, .closeArray => some (after (.array []) stack)
  | firstItem stack, t => begin (.array [] :: stack) t
  | firstKey stack, .closeObject => some (after (.object []) stack)
  | firstKey stack, .string k => some (colon (.object [] k :: stack))
  | key done stack, .string k => some (colon (.object done k :: stack))
  | colon stack, .colon => some (value stack)
  | after v (.array done :: stack), .comma => some (value (.array (v :: done) :: stack))
  | after v (.array done :: stack), .closeArray =>
    some (after (.array (v :: done).reverse) stack)
  | after v (.object done k :: stack), .comma => some (key ((k, v) :: done) stack)
  | after v (.object done k :: stack), .closeObject =>
    some (after (.object ((k, v) :: done).reverse) stack)
  | _, _ => none

/-- The value that has been read, if the text may end here. -/
def result? : Reader → Option Value
  | after v [] => some v
  | _ => none

/-- Take the tokens of a text. -/
def run (r : Reader) (cs : List Char) : Option Value :=
  match _h : nextToken cs with
  | none => none
  | some none => r.result?
  | some (some (t, rest)) =>
    match r.step t with
    | none => none
    | some r' => run r' rest
termination_by cs.length
decreasing_by exact length_of_nextToken ‹_›

end Reader

namespace Value

/-- The value that a text consists of. -/
def read? (text : List Char) : Option Value :=
  (Reader.value []).run text

/-- The members of an object whose keys all have a text. -/
def members? : Value → Option (List (String × Value))
  | object members => members.mapM fun (key, v) => key.map (·, v)
  | _ => none

/-- A boolean. -/
def bool? : Value → Option Bool
  | bool b => some b
  | _ => none

/-- A natural number of at most 32 bits. -/
def word? : Value → Option UInt32
  | number (some n) => if n < UInt32.size then some (UInt32.ofNat n) else none
  | _ => none

/-- One of a list of names: either as a string, or as an object with the name as its only key and
`null` as its value. -/
def named? {α : Type} (names : List (String × α)) : Value → Option α
  | string (some s) => names.lookup s
  | object [(some s, null)] => names.lookup s
  | _ => none

end Value

end Json

end Handheld
