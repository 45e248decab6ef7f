import Handheld.Registers

/-!
# Debugging messages

A debugger sends one `Debug.Request` at a time and gets one `Debug.Response`.  An address below
`Debug.registerSpace` belongs to the bus; from there on, addresses name registers by their index.
A `Debug.Status` tells how a request or a run ended.
-/

namespace Handheld

namespace Debug

/-- The first address that names a register. -/
def registerSpace : UInt32 := 0x10000

/-- The address that names the register with a given index. -/
def registerAddress (i : UInt32) : UInt32 := registerSpace + i

/-- How a request or a run ended. -/
inductive Status
  | success
  /-- The run stopped in front of a breakpoint. -/
  | breakpoint
  /-- The request makes no sense, and nothing happened. -/
  | invalid
  | failure
  deriving DecidableEq

namespace Status

/-- The number of a status. -/
def code : Status → UInt32
  | success => 0
  | breakpoint => 1
  | invalid => 2
  | failure => 3

/-- The status with a given number. -/
def ofCode? (v : UInt32) : Option Status :=
  match v.toNat with
  | 0 => some success
  | 1 => some breakpoint
  | 2 => some invalid
  | 3 => some failure
  | _ => none

/-- The name of a status. -/
def name : Status → String
  | success => "success"
  | breakpoint => "breakpoint"
  | invalid => "invalid"
  | failure => "failure"

/-- Whether a status is a good one. -/
def isOk : Status → Bool
  | success => true
  | breakpoint => true
  | _ => false

@[simp] theorem ofCode?_code (s : Status) : ofCode? s.code = some s := by
  cases s <;> rfl

end Status

/-- What a debugger can ask for. -/
inductive Action
  | nop
  /-- Take one step; the response holds its cost. -/
  | cycle
  | read
  | write
  /-- Deliver a byte at the serial link. -/
  | serialIn
  deriving DecidableEq

namespace Action

/-- The number of an action. -/
def code : Action → UInt32
  | nop => 0
  | cycle => 1
  | read => 2
  | write => 3
  | serialIn => 4

/-- The action with a given number. -/
def ofCode? (v : UInt32) : Option Action :=
  match v.toNat with
  | 0 => some nop
  | 1 => some cycle
  | 2 => some read
  | 3 => some write
  | 4 => some serialIn
  | _ => none

@[simp] theorem ofCode?_code (a : Action) : ofCode? a.code = some a := by
  cases a <;> rfl

end Action

/-- A question of a debugger. -/
structure Request where
  action : Action
  /-- A number that the response repeats. -/
  id : UInt32
  address : UInt32 := 0
  data : UInt32 := 0
  deriving DecidableEq

namespace Request

/-- Do nothing. -/
def nop (id : UInt32) : Request := { action := .nop, id := id }

/-- Take one step. -/
def cycle (id : UInt32) : Request := { action := .cycle, id := id }

/-- Read a byte or a register. -/
def read (id address : UInt32) : Request := { action := .read, id := id, address := address }

/-- Write a byte or a register. -/
def write (id address data : UInt32) : Request :=
  { action := .write, id := id, address := address, data := data }

/-- Deliver a byte at the serial link. -/
def serialIn (id : UInt32) (byte : UInt8) : Request :=
  { action := .serialIn, id := id, data := byte.toUInt32 }

/-- The index of the register that the request names, if it names one. -/
def registerIndex? (r : Request) : Option UInt32 :=
  if registerSpace ≤ r.address then some (r.address - registerSpace) else none

/-- Whether the request names a register, known or not. -/
def targetsRegisters (r : Request) : Bool := r.registerIndex?.isSome

end Request

/-- The answer to a request. -/
structure Response where
  id : UInt32
  status : Status
  data : UInt32
  deriving DecidableEq

namespace Response

/-- The request was carried out. -/
def ok (id data : UInt32) : Response := { id := id, status := .success, data := data }

/-- The request makes no sense. -/
def invalid (id : UInt32) : Response := { id := id, status := .invalid, data := 0 }

end Response

end Debug

end Handheld
