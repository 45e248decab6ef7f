import Handheld.Debug.Message
import Handheld.Machine

/-!
# The console

A `Console` is what a user holds: the settings, perhaps a machine, the surroundings, a disk and a
journal.  `Console.load` inserts a cartridge and `Console.unload` removes it; `Console.stepOnce`,
`Console.stepMany` and `Console.run` let the machine go on; `Console.debug` answers a debugger;
and `Console.exportState` and `Console.importState` save the machine and bring it back.  An
operation that fails leaves the machine as it was.
-/

namespace Handheld

/-- A console, with or without a cartridge. -/
structure Console (η : Type) where
  config : Config := {}
  machine : Option Machine := none
  host : η
  disk : Disk := {}
  journal : Journal := {}

namespace Console

variable {η : Type}

/-- Note a diagnostic. -/
def note (c : Console η) (d : Diagnostic) : Console η :=
  { c with journal := c.journal.note d }

/-- Whether a cartridge is inserted. -/
def isLoaded (c : Console η) : Bool := c.machine.isSome

/-- What the cartridge says about itself. -/
def header? (c : Console η) : Option Header := c.machine.map (·.cartridge.header)

/-! ### Cartridges -/

/-- A new machine with the RAM that its battery has kept, if there is any.  A file of the wrong
size is refused. -/
def withKept (m : Machine) (disk : Disk) : Except Error (Machine × Option Diagnostic) :=
  match m.batteryFile with
  | none => .ok (m, none)
  | some file =>
    if m.cartridge.header.battery && disk.contains file then
      match disk.read file with
      | .error fault => .error (.io fault)
      | .ok ram =>
        let expected := m.cartridge.ram.size
        if ram.size = expected then .ok (m.withRam ram, some (.batteryRead file))
        else .error (.lengthMismatch expected ram.size)
    else .ok (m, none)

/-- Write the battery of the cartridge that another one replaces; a failure is only reported. -/
def retire (c : Console η) : Console η :=
  match c.machine with
  | none => c
  | some m =>
    match m.flushBattery c.disk with
    | .ok (disk, d) => { c with machine := none, disk := disk, journal := c.journal.note? d }
    | .error e => { c with machine := none, journal := c.journal.note (.batteryLost e) }

/-- Insert a cartridge.  Nothing changes unless every check passes, including the check of the file
that the battery has kept; the battery of a cartridge that was inserted before is written after
that file was read. -/
def load (c : Console η) (image : Array UInt8) (boot : Option (Array UInt8) := none)
    (batteryFile : Option String := none) : Except Error Unit × Console η :=
  match Machine.build image boot c.config with
  | .error e => (.error e, c)
  | .ok m =>
    let c := c.note (.cartridge m.cartridge.header)
    match withKept { m with batteryFile := batteryFile } c.disk with
    | .error e => (.error e, c)
    | .ok (m, d) =>
      let c := retire { c with journal := c.journal.note? d }
      (.ok (), { c with machine := some m })

/-- Remove the cartridge, after its battery has been written.  The cartridge is gone even if that
fails. -/
def unload (c : Console η) : Except Error Unit × Console η :=
  match c.machine with
  | none => (.error .notLoaded, c)
  | some m =>
    let c := note { c with machine := none }
      (.unloading m.cartridge.header.title m.clock.cycles)
    match m.flushBattery c.disk with
    | .ok (disk, d) => (.ok (), { c with disk := disk, journal := c.journal.note? d })
    | .error e => (.error e, c)

/-! ### Accesses -/

/-- The byte that the processor would read at an address; without a cartridge all bits are ones. -/
def read (c : Console η) (addr : UInt16) : UInt8 × Console η :=
  match c.machine with
  | none => (0xFF, c)
  | some m => (m.bus.read addr, { c with journal := c.journal.note? (m.bus.readDiagnostic? addr) })

/-- Write as the processor would; without a cartridge nothing happens. -/
def write : Console η → UInt16 → UInt8 → Console η
  | ⟨config, some ⟨cpu, bus, clock, file⟩, host, disk, journal⟩, addr, v =>
    let journal := journal.note? (bus.writeDiagnostic? addr v)
    ⟨config, some ⟨cpu, bus.write addr v, clock, file⟩, host, disk, journal⟩
  | c, _, _ => c

/-- The value of a register. -/
def register? (c : Console η) (r : RegisterId) : Option UInt32 :=
  c.machine.map (·.register r)

/-- Store a value into a register, and tell whether that was possible. -/
def setRegister (c : Console η) (r : RegisterId) (v : UInt32) : Bool × Console η :=
  match c.machine.bind (·.setRegister? r v) with
  | none => (false, c)
  | some m => (true, { c with machine := some m })

/-! ### Running -/

/-- Take one step and return its cost. -/
def stepOnce [Host η] : Console η → Except Error UInt32 × Console η
  | ⟨config, some m, host, disk, journal⟩ =>
    let ⟨cycles, m, host, journal⟩ := m.step host journal
    (.ok cycles, ⟨config, some m, host, disk, journal⟩)
  | c => (.error .notLoaded, c)

/-- A machine at the end of a run. -/
structure Ran (η : Type) where
  /-- How the run ended, unless only the number of its steps did. -/
  status? : Option Debug.Status
  machine : Machine
  host : η
  journal : Journal

/-- Take at most `n` steps.  Before each of them the host is asked whether to go on, and then the
run ends if the program counter is at a breakpoint. -/
def runSteps [Host η] (breakpoints : List UInt16) : Nat → Machine → η → Journal → Ran η
  | 0, m, host, journal => ⟨none, m, host, journal⟩
  | n + 1, m, host, journal =>
    match Host.pollContinue host with
    | (false, host) => ⟨some .success, m, host, journal⟩
    | (true, host) =>
      if breakpoints.contains m.cpu.regs.pc then ⟨some .breakpoint, m, host, journal⟩
      else
        let ⟨_, m, host, journal⟩ := m.step host journal
        runSteps breakpoints n m host journal

/-- Run until the host wants to stop or a breakpoint is reached.  The status is nothing if neither
happens within `limit` steps; the console has then taken them, and can go on from there. -/
def run [Host η] (limit : Nat) (breakpoints : List UInt16) :
    Console η → Option Debug.Status × Console η
  | ⟨config, some m, host, disk, journal⟩ =>
    let ⟨status?, m, host, journal⟩ := runSteps breakpoints limit m host journal
    (status?, ⟨config, some m, host, disk, journal⟩)
  | c => (some .failure, c)

/-- Take a number of steps, unless the host wants to stop or a breakpoint is reached before. -/
def stepMany [Host η] (count : UInt32) (breakpoints : List UInt16) (c : Console η) :
    Debug.Status × Console η :=
  let (status?, c) := run count.toNat breakpoints c
  (status?.getD .success, c)

/-! ### Debugging -/

/-- The register that a request names, if there is such a register. -/
def namedRegister? (i : UInt32) : Option RegisterId := RegisterId.ofIndex? i.toNat

/-- Answer a request that reads. -/
def debugRead (c : Console η) (r : Debug.Request) : Debug.Response × Console η :=
  match r.registerIndex? with
  | some i =>
    match (namedRegister? i).bind c.register? with
    | some v => (.ok r.id v, c)
    | none => (.invalid r.id, c)
  | none =>
    let (v, c) := c.read r.address.toUInt16
    (.ok r.id v.toUInt32, c)

/-- Answer a request that writes. -/
def debugWrite (c : Console η) (r : Debug.Request) : Debug.Response × Console η :=
  match r.registerIndex? with
  | some i =>
    match namedRegister? i with
    | none => (.invalid r.id, c)
    | some reg =>
      match c.setRegister reg r.data with
      | (true, c) => (.ok r.id r.data, c)
      | (false, c) => (.invalid r.id, c)
  | none =>
    if r.data > 0xFF then (.invalid r.id, c)
    else (.ok r.id r.data, c.write r.address.toUInt16 r.data.toUInt8)

/-- Deliver a byte at the serial link.  The response holds the byte that went the other way. -/
def deliver (c : Console η) (v : UInt8) : Option (UInt8 × Console η) := do
  let m ← c.machine
  let (out, serial) ← m.bus.serial.receive? v
  let bus := { m.bus with
    serial := serial
    interrupts := m.bus.interrupts.raise { serial := true } }
  return (out, { c with machine := some { m with bus := bus } })

/-- Answer a request that delivers a byte at the serial link. -/
def debugSerialIn (c : Console η) (r : Debug.Request) : Debug.Response × Console η :=
  if r.data > 0xFF then (.invalid r.id, c)
  else
    match c.deliver r.data.toUInt8 with
    | some (out, c) => (.ok r.id out.toUInt32, c)
    | none => (.invalid r.id, c)

/-- Answer a debugger.  Without a cartridge every request is invalid. -/
def debug [Host η] (c : Console η) (r : Debug.Request) : Debug.Response × Console η :=
  if !c.isLoaded then (.invalid r.id, c)
  else
    match r.action with
    | .nop => (.ok r.id 0, c)
    | .cycle =>
      match c.stepOnce with
      | (.ok cycles, c) => (.ok r.id cycles, c)
      | (.error _, c) => (.invalid r.id, c)
    | .read => c.debugRead r
    | .write => c.debugWrite r
    | .serialIn => c.debugSerialIn r

/-! ### Saving -/

/-- The machine, or the error that there is none. -/
def requireMachine (c : Console η) : Except Error Machine :=
  match c.machine with
  | none => .error .notLoaded
  | some m => .ok m

/-- Write bytes to a medium, which may have a limit. -/
def exported (capacity : Option Nat) (bytes : List UInt8) : Except Error (List UInt8) :=
  match fitting capacity bytes with
  | .ok bytes => .ok bytes
  | .error fault => .error (.io fault)

/-- Write the RAM of the cartridge to a medium. -/
def exportBattery (c : Console η) (capacity : Option Nat := none) : Except Error (List UInt8) := do
  let m ← c.requireMachine
  exported capacity m.cartridge.ram.toList

/-- Replace the RAM of the cartridge, by as many bytes as it has. -/
def importBattery (c : Console η) (bytes : List UInt8) : Except Error (Console η) := do
  let m ← c.requireMachine
  let ram := bytes.toArray
  let expected := m.cartridge.ram.size
  if ram.size = expected then
    return { c with machine := some (m.withRam ram) }
  else
    throw (.lengthMismatch expected ram.size)

/-- Write the saved state of the machine to a medium. -/
def exportState (c : Console η) (capacity : Option Nat := none) : Except Error (List UInt8) := do
  let m ← c.requireMachine
  exported capacity m.save

/-- Go back to a saved state of a machine with the same cartridge.  The state is built up in a
machine of its own, so that a bad one changes nothing. -/
def importState (c : Console η) (bytes : List UInt8) : Except Error Unit × Console η :=
  match c.machine with
  | none => (.error .notLoaded, c)
  | some m =>
    match Machine.stateBody bytes with
    | .error fault => (.error (.badSnapshot fault), c)
    | .ok body =>
      match Machine.build m.cartridge.rom m.bus.bootRom c.config with
      | .error e => (.error e, c)
      | .ok fresh =>
        let c := c.note (.cartridge fresh.cartridge.header)
        match Machine.restored fresh body with
        | .error fault => (.error (.badSnapshot fault), c)
        | .ok restored =>
          (.ok (), { c with machine := some { restored with batteryFile := m.batteryFile } })

end Console

end Handheld
