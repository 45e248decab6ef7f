import Handheld.Bus
import Handheld.Clock
import Handheld.Disk
import Handheld.Processor.Step

/-!
# The machine

A `Machine` is a console with a cartridge inserted: the processor, the bus and the clock, and the
name of the file that stands for the battery of the cartridge.  `Machine.step` takes one step of
the processor and lets its cost pass for everything else.  `Machine.save` and `Machine.restored`
are the saved form of the whole machine.
-/

namespace Handheld

/-- What exists only while a cartridge is inserted. -/
structure Machine where
  cpu : Processor
  bus : Bus
  clock : Clock := {}
  /-- The file that keeps the RAM of the cartridge. -/
  batteryFile : Option String := none
  deriving DecidableEq

namespace Machine

/-- Check the size of a start-up program. -/
def checkBoot : Option (Array UInt8) → Except Error Unit
  | none => .ok ()
  | some boot => if boot.size = bootRomSize then .ok () else .error (.bootRomSize boot.size)

/-- The machine with a given cartridge image, just switched on. -/
def build (image : Array UInt8) (boot : Option (Array UInt8)) (config : Config) :
    Except Error Machine := do
  checkBoot boot
  let cartridge ← Cartridge.ofImage image
  let cpu : Processor := if boot.isSome then {} else .postBoot
  return {
    cpu := { cpu with trace := config.traceInstructions }
    bus := .create cartridge boot config }

/-- The cartridge. -/
def cartridge (m : Machine) : Cartridge := m.bus.cartridge

/-- The machine with other cartridge RAM. -/
def withRam (m : Machine) (ram : Array UInt8) : Machine :=
  { m with bus := { m.bus with cartridge := { m.bus.cartridge with ram := ram } } }

/-! ### Time -/

/-- A machine that has taken a step. -/
structure Stepped (η : Type) where
  /-- The cost of the step. -/
  cycles : UInt32
  machine : Machine
  host : η
  journal : Journal

/-- Take a step: look for an interrupt, execute an instruction, and let the cost of both pass.  A
button ends `stop`, and a complete frame goes to the host.  The program crashes if a counter has no
room for the cost. -/
def step {η : Type} [Host η] : Machine → η → Journal → Stepped η
  | ⟨cpu, bus, clock, batteryFile⟩, host, journal =>
    let (waited, core) := Core.service (⟨cpu, ⟨bus, journal⟩⟩ : Core ReportingBus)
    match core.step with
    | (spent, ⟨cpu, ⟨bus, journal⟩⟩) =>
      let cycles := waited + spent
      let journal := journal.crashedUnless (decide (bus.Fits cycles.toNat))
      let ⟨bus, host, frameDone, pressed⟩ := bus.advance cycles host
      let cpu := if pressed then { cpu with stopped := false } else cpu
      let host := if frameDone then bus.display.frame.present host else host
      { cycles := cycles
        machine := ⟨cpu, bus, clock.tick cycles, batteryFile⟩
        host := host
        journal := journal }

/-! ### Registers -/

/-- The value of a register. -/
def register (m : Machine) (r : RegisterId) : UInt32 :=
  match r with
  | .interruptEnable => m.bus.interrupts.readEnable.toUInt32
  | .interruptRequest => m.bus.interrupts.readRequest.toUInt32
  | r => (m.cpu.register? r).getD 0

/-- Store a value into a register, unless it is too large. -/
def setRegister? (m : Machine) (r : RegisterId) (v : UInt32) : Option Machine :=
  match r with
  | .interruptEnable =>
    if v > r.maxValue then none
    else some { m with bus := { m.bus with interrupts := m.bus.interrupts.writeEnable v.toUInt8 } }
  | .interruptRequest =>
    if v > r.maxValue then none
    else some { m with bus := { m.bus with interrupts := m.bus.interrupts.writeRequest v.toUInt8 } }
  | r => (m.cpu.setRegister? r v).map fun cpu => { m with cpu := cpu }

/-! ### The battery -/

/-- What the battery keeps, and in which file; nothing if there is no file, no battery or no
RAM. -/
def kept? (m : Machine) : Option (String × Array UInt8) :=
  match m.batteryFile with
  | none => none
  | some file =>
    if m.cartridge.header.battery && !m.cartridge.ram.isEmpty then some (file, m.cartridge.ram)
    else none

/-- Write the RAM of the cartridge to the file of its battery, if there is something to keep. -/
def flushBattery (m : Machine) (disk : Disk) : Except Error (Disk × Option Diagnostic) :=
  match m.kept? with
  | none => .ok (disk, none)
  | some (file, ram) =>
    match disk.write file ram with
    | .ok disk => .ok (disk, some (.batteryWritten file))
    | .error fault => .error (.io fault)

/-! ### Saved form -/

/-- The first bytes of every saved state. -/
def stateMagic : List UInt8 := [0x44, 0x4D, 0x47, 0x53]

/-- The version of the format of saved states. -/
def stateVersion : UInt8 := 1

/-- The saved form of a machine with a given cartridge, after the first bytes. -/
def record (c : Cartridge) : Record Machine :=
  Clock.record.within (·.clock) (fun clock m => { m with clock := clock }) ++
  Bus.peripheralsRecord.within (·.bus) (fun bus m => { m with bus := bus }) ++
  Processor.record.within (·.cpu) (fun cpu m => { m with cpu := cpu }) ++
  (Bus.systemRecord c).within (·.bus) (fun bus m => { m with bus := bus })

/-- The saved state of a machine. -/
def save (m : Machine) : List UInt8 :=
  stateMagic ++ stateVersion :: (record m.cartridge).save m

/-- The part of a saved state after the first bytes, which must be as they should. -/
def stateBody (bytes : List UInt8) : Except SnapshotFault (List UInt8) :=
  match bytes.drop stateMagic.length with
  | [] => .error .missingHeader
  | version :: body =>
    if bytes.take stateMagic.length ≠ stateMagic then .error .missingHeader
    else if version ≠ stateVersion then .error (.unsupportedVersion version)
    else .ok body

/-- The machine in a saved state, given a machine with the same cartridge that has just been
switched on. -/
def restored (fresh : Machine) (body : List UInt8) : Except SnapshotFault Machine :=
  match (record fresh.cartridge).load body fresh with
  | ⟨m, .ok []⟩ => .ok m
  | ⟨_, .ok rest⟩ => .error (.trailing rest.length)
  | ⟨_, .error fault⟩ => .error (.component fault)

end Machine

end Handheld
