import Handheld.Error
import Handheld.Json.Member
import Handheld.Json.Printer

/-!
# Configuration

A `Config` says what the console reports and how often it looks at the buttons.  `Config.ofJson?`
reads one from JSON text, as an object with some of the three keys or as an array of the first few
values, and `Config.toJson` writes one.
-/

namespace Handheld

/-- The settings of a console. -/
structure Config where
  /-- Whether accesses to addresses where nothing answers are reported. -/
  reportUnmapped : Bool := true
  /-- Whether every executed instruction is reported. -/
  traceInstructions : Bool := false
  /-- The cycles from one look at the buttons to the next. -/
  pollCycles : UInt32 := 16384
  deriving DecidableEq, Inhabited

namespace Config

/-- The key of `reportUnmapped`. -/
def reportUnmappedKey : String := "log_unmapped"

/-- The key of `traceInstructions`. -/
def traceInstructionsKey : String := "trace_instructions"

/-- The key of `pollCycles`. -/
def pollCyclesKey : String := "joypad_poll_cycles"

/-- The keys of a configuration. -/
def keys : List String := [reportUnmappedKey, traceInstructionsKey, pollCyclesKey]

/-- Read a configuration from the members of an object.  Every key is known and occurs at most
once; a missing one has its default. -/
def ofMembers? (members : List (String × Json.Value)) : Option Config := do
  if members.any fun member => !keys.contains member.1 then
    none
  else
    let c : Config := {}
    return {
      reportUnmapped := ← Json.optional? members reportUnmappedKey (·.bool?) c.reportUnmapped
      traceInstructions :=
        ← Json.optional? members traceInstructionsKey (·.bool?) c.traceInstructions
      pollCycles := ← Json.optional? members pollCyclesKey (·.word?) c.pollCycles }

/-- Read a configuration from the values of an array, of which the last few may be missing. -/
def ofItems? : List Json.Value → Option Config
  | [] => some {}
  | [a] => do
    return { reportUnmapped := ← a.bool? }
  | [a, b] => do
    return { reportUnmapped := ← a.bool?, traceInstructions := ← b.bool? }
  | [a, b, c] => do
    return {
      reportUnmapped := ← a.bool?
      traceInstructions := ← b.bool?
      pollCycles := ← c.word? }
  | _ => none

/-- Read a configuration from a value. -/
def ofValue? : Json.Value → Option Config
  | .array items => ofItems? items
  | v => v.members?.bind ofMembers?

/-- Read a configuration from JSON text. -/
def ofJson? (text : String) : Except Error Config :=
  match (Json.Value.read? text.toList).bind ofValue? with
  | none => .error (.config .malformed)
  | some c => if c.pollCycles = 0 then .error (.config .zeroPollCycles) else .ok c

/-- A configuration as JSON text. -/
def toJson (c : Config) : String :=
  Json.object [
    (reportUnmappedKey, Json.bool c.reportUnmapped),
    (traceInstructionsKey, Json.bool c.traceInstructions),
    (pollCyclesKey, Json.natural c.pollCycles.toNat)]

end Config

end Handheld
