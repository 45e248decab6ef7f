import Handheld.Text.Hex

/-!
# Writing JSON text

`Json.quote` writes a string, and `Json.object` writes an object from the texts of its members,
without any blanks.
-/

namespace Handheld

namespace Json

/-- A character inside a string: quotes, backslashes and control characters are escaped. -/
def escape (c : Char) : List Char :=
  match c with
  | '"' => ['\\', '"']
  | '\\' => ['\\', '\\']
  | '\x08' => ['\\', 'b']
  | '\x0C' => ['\\', 'f']
  | '\n' => ['\\', 'n']
  | '\r' => ['\\', 'r']
  | '\t' => ['\\', 't']
  | c => if c < ' ' then ['\\', 'u', '0', '0'] ++ (Hex.lower 2 c.toNat).toList else [c]

/-- A string. -/
def quote (s : String) : String :=
  String.ofList ('"' :: s.toList.flatMap escape ++ ['"'])

/-- A truth value. -/
def bool (b : Bool) : String :=
  if b then "true" else "false"

/-- A natural number. -/
def natural (n : Nat) : String :=
  toString n

/-- An object with the given members, whose values are given as texts. -/
def object (members : List (String × String)) : String :=
  "\x7b" ++ ",".intercalate (members.map fun (key, text) => quote key ++ ":" ++ text) ++ "\x7d"

end Json

end Handheld
