import Handheld.Debug.Message
import Handheld.Json.Member
import Handheld.Json.Printer
import Handheld.Text.Trim

/-!
# Debugging messages as lines of text

Each message has a form as a line of JSON: `toLine` writes it with its line end, and `ofLine?` reads
it, with any blanks around it.  A request or a response is an object with all of its keys, each of
them once, and possibly others that mean nothing, or an array of exactly its values.
-/

namespace Handheld

namespace Debug

/-- The value in a line of text, if the text without the blanks around it is JSON. -/
def valueOfLine? (line : String) : Option Json.Value :=
  Json.Value.read? (Text.trimBoth Text.isBlank line.toList)

/-- A text with its line end. -/
def endLine (text : String) : String := text ++ "\n"

namespace Status

/-- Every status with its name. -/
def names : List (String × Status) :=
  [success, breakpoint, invalid, failure].map fun s => (s.name, s)

/-- A status as JSON text. -/
def toJson (s : Status) : String := Json.quote s.name

/-- Read a status from a value. -/
def ofValue? : Json.Value → Option Status := Json.Value.named? names

/-- A status as a line of text. -/
def toLine (s : Status) : String := endLine s.toJson

/-- Read a status from a line of text. -/
def ofLine? (line : String) : Option Status := (valueOfLine? line).bind ofValue?

end Status

namespace Action

/-- The name of an action in a message. -/
def name : Action → String
  | nop => "nop"
  | cycle => "cycle"
  | read => "read"
  | write => "write"
  | serialIn => "serial_in"

/-- Every action with its name. -/
def names : List (String × Action) :=
  [nop, cycle, read, write, serialIn].map fun a => (a.name, a)

/-- Read an action from a value. -/
def ofValue? : Json.Value → Option Action := Json.Value.named? names

end Action

namespace Request

/-- A request as a line of text. -/
def toLine (r : Request) : String :=
  endLine <| Json.object [
    ("kind", Json.quote r.action.name),
    ("id", Json.natural r.id.toNat),
    ("address", Json.natural r.address.toNat),
    ("data", Json.natural r.data.toNat)]

/-- Read a request from the members of an object. -/
def ofMembers? (members : List (String × Json.Value)) : Option Request := do
  return {
    action := ← Json.required? members "kind" Action.ofValue?
    id := ← Json.required? members "id" (·.word?)
    address := ← Json.required? members "address" (·.word?)
    data := ← Json.required? members "data" (·.word?) }

/-- Read a request from a value. -/
def ofValue? : Json.Value → Option Request
  | .array [action, id, address, data] => do
    return {
      action := ← Action.ofValue? action
      id := ← id.word?
      address := ← address.word?
      data := ← data.word? }
  | v => v.members?.bind ofMembers?

/-- Read a request from a line of text. -/
def ofLine? (line : String) : Option Request := (valueOfLine? line).bind ofValue?

end Request

namespace Response

/-- A response as a line of text. -/
def toLine (r : Response) : String :=
  endLine <| Json.object [
    ("id", Json.natural r.id.toNat),
    ("status", r.status.toJson),
    ("data", Json.natural r.data.toNat)]

/-- Read a response from the members of an object. -/
def ofMembers? (members : List (String × Json.Value)) : Option Response := do
  return {
    id := ← Json.required? members "id" (·.word?)
    status := ← Json.required? members "status" Status.ofValue?
    data := ← Json.required? members "data" (·.word?) }

/-- Read a response from a value. -/
def ofValue? : Json.Value → Option Response
  | .array [id, status, data] => do
    return {
      id := ← id.word?
      status := ← Status.ofValue? status
      data := ← data.word? }
  | v => v.members?.bind ofMembers?

/-- Read a response from a line of text. -/
def ofLine? (line : String) : Option Response := (valueOfLine? line).bind ofValue?

end Response

end Debug

end Handheld
