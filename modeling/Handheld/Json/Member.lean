import Handheld.Json.Value

/-!
# Members of JSON objects

A reader of an object asks for its members by key.  `Json.optional?` and `Json.required?` look for a
member that occurs at most once, and hand its value to the reader of that value; they differ in what
they make of a missing member.
-/

namespace Handheld

namespace Json

/-- The values that belong to a key, in the order of the text. -/
def valuesOf (members : List (String × Value)) (key : String) : List Value :=
  (members.filter fun member => member.1 == key).map Prod.snd

/-- Read the member with a given key, or take the default if there is none.  A key that occurs more
than once is an error. -/
def optional? {α : Type} (members : List (String × Value)) (key : String)
    (read? : Value → Option α) (default : α) : Option α :=
  match valuesOf members key with
  | [] => some default
  | [v] => read? v
  | _ => none

/-- Read the member with a given key.  A key that is missing or occurs more than once is an
error. -/
def required? {α : Type} (members : List (String × Value)) (key : String)
    (read? : Value → Option α) : Option α :=
  match valuesOf members key with
  | [v] => read? v
  | _ => none

end Json

end Handheld
