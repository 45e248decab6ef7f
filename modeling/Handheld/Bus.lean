import Handheld.Cartridge
import Handheld.Config
import Handheld.Display
import Handheld.Dma
import Handheld.Joypad
import Handheld.Location
import Handheld.Memory
import Handheld.Serial
import Handheld.Sound
import Handheld.Timer

/-!
# The bus

A `Bus` joins everything but the processor: the cartridge, the memories and the devices.  `Bus.read`
and `Bus.write` route an access to the part that answers, `Bus.advance` lets time pass for all
devices in a fixed order as long as their counters have room for it (`Bus.Fits`), and
`Bus.peripheralsRecord` and `Bus.systemRecord` are its saved form in two parts.  What an access is
worth reporting for is computed apart from the access: see `Bus.readDiagnostic?` and
`Bus.writeDiagnostic?`.  `ReportingBus` puts both together, for the processor.
-/

namespace Handheld

/-- The size of the start-up program. -/
def bootRomSize : Nat := 0x100

/-- The console without its processor. -/
structure Bus where
  cartridge : Cartridge
  /-- The start-up program, if the console has one. -/
  bootRom : Option (Array UInt8)
  /-- Whether the start-up program covers the beginning of the cartridge. -/
  bootActive : Bool
  workRam : Vector UInt8 0x2000
  highRam : Vector UInt8 0x7F
  videoRam : Vector UInt8 0x2000
  spriteRam : Vector UInt8 0xA0
  interrupts : InterruptController
  sound : Sound
  joypad : Joypad
  serial : Serial
  timer : Timer
  display : Display
  dma : Dma
  /-- Whether accesses to addresses where nothing answers are reported. -/
  reportUnmapped : Bool
  deriving DecidableEq

namespace Bus

/-- A console with a cartridge.  With a start-up program it is cold; without one it is as the
start-up program would have left it. -/
def create (cartridge : Cartridge) (boot : Option (Array UInt8)) (config : Config) : Bus where
  cartridge := cartridge
  bootRom := boot
  bootActive := boot.isSome
  workRam := Vector.replicate _ 0
  highRam := Vector.replicate _ 0
  videoRam := Vector.replicate _ 0
  spriteRam := Vector.replicate _ 0
  interrupts := {}
  sound := if boot.isSome then .cold else .postBoot
  joypad := .every config.pollCycles
  serial := {}
  timer := {}
  display := if boot.isSome then .cold else .postBoot
  dma := {}
  reportUnmapped := config.reportUnmapped

/-! ### Accesses -/

/-- The byte at a ROM address: of the start-up program while it covers the address, and of the
cartridge otherwise. -/
def readRom (b : Bus) (addr : UInt16) : UInt8 :=
  match b.bootRom with
  | some boot =>
    if b.bootActive && addr < 0x100 && boot.size == bootRomSize then boot.getD addr.toNat 0xFF
    else b.cartridge.readRom addr
  | none => b.cartridge.readRom addr

/-- The byte that the processor reads at an address. -/
def read (b : Bus) (addr : UInt16) : UInt8 :=
  match Location.ofAddress addr with
  | .rom addr => b.readRom addr
  | .videoRam i => if b.display.videoAccessible then b.videoRam.get i else 0xFF
  | .cartridgeRam addr => b.cartridge.readRam addr
  | .workRam i => b.workRam.get i
  | .spriteRam i => if b.display.oamAccessible then b.spriteRam.get i else 0xFF
  | .joypad => b.joypad.read
  | .serial r => b.serial.read r
  | .timer r => b.timer.read r
  | .interruptRequest => b.interrupts.readRequest
  | .sound r => b.sound.read r
  | .dma => b.dma.page
  | .display r => b.display.read r
  | .bootLatch => 0xFF
  | .highRam i => b.highRam.get i
  | .interruptEnable => b.interrupts.readEnable
  | .unmapped => 0xFF

/-- A write of the processor. -/
def write (b : Bus) (addr : UInt16) (v : UInt8) : Bus :=
  match Location.ofAddress addr with
  | .rom addr => { b with cartridge := b.cartridge.writeControl addr v }
  | .videoRam i =>
    if b.display.videoAccessible then { b with videoRam := b.videoRam.set i v i.isLt } else b
  | .cartridgeRam addr => { b with cartridge := b.cartridge.writeRam addr v }
  | .workRam i => { b with workRam := b.workRam.set i v i.isLt }
  | .spriteRam i =>
    if b.display.oamAccessible then { b with spriteRam := b.spriteRam.set i v i.isLt } else b
  | .joypad => { b with joypad := b.joypad.write v }
  | .serial r => { b with serial := b.serial.write r v }
  | .timer r => { b with timer := b.timer.write r v }
  | .interruptRequest => { b with interrupts := b.interrupts.writeRequest v }
  | .sound r => { b with sound := b.sound.write r v }
  | .dma => { b with dma := .start v }
  | .display r => { b with display := b.display.write r v }
  | .bootLatch => if v = 0 then b else { b with bootActive := false }
  | .highRam i => { b with highRam := b.highRam.set i v i.isLt }
  | .interruptEnable => { b with interrupts := b.interrupts.writeEnable v }
  | .unmapped => b

/-- What a read is worth reporting for: nothing answers. -/
def readDiagnostic? (b : Bus) (addr : UInt16) : Option Diagnostic :=
  match Location.ofAddress addr with
  | .unmapped => if b.reportUnmapped then some (.unmappedRead addr) else none
  | _ => none

/-- What a write is worth reporting for: it begins or ends an activity, or nothing answers. -/
def writeDiagnostic? (b : Bus) (addr : UInt16) (v : UInt8) : Option Diagnostic :=
  match Location.ofAddress addr with
  | .dma => some (.spriteTransfer (Word.join v 0))
  | .display r => b.display.writeDiagnostic? r v
  | .bootLatch => if v != 0 && b.bootActive then some .bootOverlayOff else none
  | .unmapped => if b.reportUnmapped then some (.unmappedWrite addr v) else none
  | _ => none

/-! ### Time -/

/-- The byte that a transfer into sprite memory reads at an address.  A transfer is never kept out
of the video memory, and reads work memory from `0xFE00` on. -/
def transferRead (b : Bus) (addr : UInt16) : UInt8 :=
  let n := addr.toNat
  have : n < 0x10000 := addr.toNat_lt
  if h : 0x8000 ≤ n ∧ n < 0xA000 then b.videoRam.get ⟨n - 0x8000, by omega⟩
  else if h : 0xFE00 ≤ n then b.workRam.get ⟨n - 0xE000, by omega⟩
  else b.read addr

/-- Move a byte into sprite memory. -/
def transferByte (b : Bus) : Bus :=
  let v := b.transferRead b.dma.source
  { b with spriteRam := b.spriteRam.setIfInBounds b.dma.index.toNat v, dma := b.dma.next }

/-- Move at most `n` bytes into sprite memory, as long as a transfer is under way. -/
def transfer : Nat → Bus → Bus
  | 0, b => b
  | n + 1, b => if b.dma.active then transfer n b.transferByte else b

/-- A bus on which time has passed. -/
structure Advanced (η : Type) where
  bus : Bus
  host : η
  /-- Whether a frame was completed. -/
  frameDone : Bool
  /-- Whether a button was pressed that a program has selected. -/
  pressed : Bool

/-- Let cycles pass: sound, joypad, serial link, timer, display and transfer, in this order. -/
def advance {η : Type} [Host η] (b : Bus) (cycles : UInt32) (host : η) : Advanced η :=
  let sound := b.sound.advance cycles
  let (joypad, host, pressed) := b.joypad.advance cycles host
  let (serial, host, received) := b.serial.advance cycles host
  let (timer, overflow) := b.timer.advance cycles
  let progress := b.display.advance cycles b.videoRam b.spriteRam
  let requests := progress.requests.union
    { joypad := pressed, serial := received, timer := overflow }
  let b := { b with
    sound := sound
    joypad := joypad
    serial := serial
    timer := timer
    display := progress.display
    interrupts := b.interrupts.raise requests }
  { bus := transfer cycles.toNat b
    host := host
    frameDone := progress.frameDone
    pressed := pressed }

/-- No counter that is running overflows within a number of cycles. -/
structure Fits (b : Bus) (cycles : Nat) : Prop where
  sound : b.sound.power = true → b.sound.phase.toNat + cycles < UInt32.size
  joypad : b.joypad.phase.toNat + cycles < UInt32.size
  serial : b.serial.driving = true → b.serial.phase.toNat + cycles < UInt32.size
  timer : b.timer.running = true → b.timer.phase.toNat + cycles < UInt32.size
  display : b.display.enabled = true → b.display.dots.toNat + cycles < UInt32.size

theorem fits_iff {b : Bus} {cycles : Nat} : b.Fits cycles ↔
    (b.sound.power = true → b.sound.phase.toNat + cycles < UInt32.size) ∧
      b.joypad.Fits cycles ∧
      (b.serial.driving = true → b.serial.phase.toNat + cycles < UInt32.size) ∧
      (b.timer.running = true → b.timer.phase.toNat + cycles < UInt32.size) ∧
      (b.display.enabled = true → b.display.dots.toNat + cycles < UInt32.size) :=
  ⟨fun ⟨sound, joypad, serial, timer, display⟩ => ⟨sound, joypad, serial, timer, display⟩,
    fun ⟨sound, joypad, serial, timer, display⟩ => ⟨sound, joypad, serial, timer, display⟩⟩

instance (b : Bus) (cycles : Nat) : Decidable (b.Fits cycles) :=
  decidable_of_iff' _ fits_iff

/-- Let cycles pass, unless a counter has no room for them. -/
def advance? {η : Type} [Host η] (b : Bus) (cycles : UInt32) (host : η) : Option (Advanced η) :=
  if b.Fits cycles.toNat then some (b.advance cycles host) else none

/-! ### Saved form -/

/-- The saved form of sound, joypad, serial link and timer. -/
def peripheralsRecord : Record Bus :=
  Sound.record.within (·.sound) (fun sound b => { b with sound := sound }) ++
  Joypad.record.within (·.joypad) (fun joypad b => { b with joypad := joypad }) ++
  Serial.record.within (·.serial) (fun serial b => { b with serial := serial }) ++
  Timer.record.within (·.timer) (fun timer b => { b with timer := timer })

/-- The saved memories of the console itself. -/
def memoriesRecord : Record Bus := [
  .vector (·.workRam) fun ram b => { b with workRam := ram },
  .vector (·.highRam) fun ram b => { b with highRam := ram },
  .vector (·.videoRam) fun ram b => { b with videoRam := ram },
  .vector (·.spriteRam) fun ram b => { b with spriteRam := ram }]

/-- The saved form of everything else, for a given cartridge.  A console without a start-up program
does not begin to show one. -/
def systemRecord (c : Cartridge) : Record Bus :=
  InterruptController.record.within (·.interrupts) (fun ic b => { b with interrupts := ic }) ++
  Display.record.within (·.display) (fun display b => { b with display := display }) ++
  Dma.record.within (·.dma) (fun dma b => { b with dma := dma }) ++
  c.mapperRecord.within (·.cartridge) (fun c b => { b with cartridge := c }) ++
  [.flag (·.bootActive) fun v b => { b with bootActive := v && b.bootRom.isSome }] ++
  memoriesRecord ++
  Cartridge.ramRecord.within (·.cartridge) (fun c b => { b with cartridge := c }) ++
  Display.frameRecord.within (·.display) (fun display b => { b with display := display })

end Bus

/-- A bus that keeps a journal of the accesses of the processor. -/
structure ReportingBus where
  bus : Bus
  journal : Journal

instance : Memory ReportingBus where
  read
    | ⟨bus, journal⟩, addr =>
      let journal := journal.note? (bus.readDiagnostic? addr)
      (bus.read addr, ⟨bus, journal⟩)
  write
    | ⟨bus, journal⟩, addr, v =>
      let journal := journal.note? (bus.writeDiagnostic? addr v)
      ⟨bus.write addr v, journal⟩
  controller m := m.bus.interrupts
  setController m c := { m with bus := { m.bus with interrupts := c } }
  report m d := { m with journal := m.journal.note d }

end Handheld
