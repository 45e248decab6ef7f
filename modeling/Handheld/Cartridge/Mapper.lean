import Handheld.Cartridge.Header

/-!
# Bank controllers

A `Mapper` decides which ROM bank the processor sees from `0x4000` on, which RAM bank it sees from
`0xA000` on, and whether it sees the RAM at all.  Programs steer it by writing to ROM addresses;
`Controls` holds what they wrote, `Controls.romSelect` and `Controls.ramSelect` say which banks that
asks for, and `Mapper.refresh` reduces the answer to the banks that the cartridge has.
-/

namespace Handheld

/-- The banks of a cartridge and the selection among them. -/
structure Banks where
  romCount : Nat
  ramCount : Nat
  /-- The bank in the switchable ROM window. -/
  rom : Nat
  /-- The bank in the RAM window. -/
  ram : Nat
  /-- Whether the program has switched the RAM on. -/
  ramOn : Bool
  deriving DecidableEq

namespace Banks

/-- The selection on a fresh cartridge. -/
def fresh (romCount ramCount : Nat) : Banks where
  romCount := romCount
  ramCount := ramCount
  rom := 1 % romCount
  ram := 0
  ramOn := false

/-- Select banks, modulo the numbers of banks that there are. -/
def select (b : Banks) (rom ram : Nat) : Banks :=
  { b with rom := rom % b.romCount, ram := ram % max 1 b.ramCount }

/-- Switch the RAM on if the low nibble is ten, and off otherwise. -/
def latch (b : Banks) (v : UInt8) : Banks :=
  { b with ramOn := v.toNat % 16 == 10 }

end Banks

/-- What a program has written to the controller of a cartridge. -/
inductive Controls
  | none
  | mbc1 (low high mode : UInt8)
  | mbc2 (bank : UInt8)
  | mbc3 (rom ram : UInt8)
  | mbc5 (low high ram : UInt8)
  deriving DecidableEq

namespace Controls

/-- The controller that these registers belong to. -/
def kind : Controls → MapperKind
  | none => .none
  | mbc1 .. => .mbc1
  | mbc2 .. => .mbc2
  | mbc3 .. => .mbc3
  | mbc5 .. => .mbc5

/-- The registers of a fresh controller. -/
def fresh : MapperKind → Controls
  | .none => none
  | .mbc1 => mbc1 1 0 0
  | .mbc2 => mbc2 1
  | .mbc3 => mbc3 1 0
  | .mbc5 => mbc5 1 0 0

/-- Bank zero is out of reach of most controllers: who asks for it gets the next one. -/
def orNext (bank : Nat) : Nat :=
  if bank = 0 then 1 else bank

/-- The ROM bank that the registers ask for.  An MBC1 has the next bank in place of each of the
banks `0x00`, `0x20`, `0x40` and `0x60`. -/
def romSelect : Controls → Nat
  | none => 1
  | mbc1 low high mode =>
    let bank := if mode = 0 then low.toNat ||| high.toNat * 32 else low.toNat
    if bank ∈ [0x00, 0x20, 0x40, 0x60] then bank + 1 else bank
  | mbc2 bank => orNext bank.toNat
  | mbc3 rom _ => orNext rom.toNat
  | mbc5 low high _ => high.toNat * 256 + low.toNat

/-- The RAM bank that the registers ask for. -/
def ramSelect : Controls → Nat
  | none => 0
  | mbc1 _ high mode => if mode = 0 then 0 else high.toNat
  | mbc2 _ => 0
  | mbc3 _ ram => ram.toNat
  | mbc5 _ _ ram => ram.toNat

end Controls

/-- A bank controller. -/
structure Mapper where
  banks : Banks
  controls : Controls
  deriving DecidableEq

namespace Mapper

/-- The kind of the controller. -/
def kind (m : Mapper) : MapperKind := m.controls.kind

/-- The controller of a cartridge before any program has run. -/
def fresh (h : Header) : Mapper where
  banks := .fresh h.romBanks h.ramBanks
  controls := .fresh h.kind

/-- The bank in the switchable ROM window. -/
def romBank (m : Mapper) : Nat := m.banks.rom

/-- The bank in the RAM window. -/
def ramBank (m : Mapper) : Nat :=
  match m.controls with
  | .none | .mbc2 _ => 0
  | _ => m.banks.ram

/-- Whether the RAM is visible; without a controller it always is. -/
def ramEnabled (m : Mapper) : Bool :=
  match m.controls with
  | .none => true
  | _ => m.banks.ramOn

/-- Select the banks that the registers ask for. -/
def refresh (m : Mapper) : Mapper :=
  { m with banks := m.banks.select m.controls.romSelect m.controls.ramSelect }

/-- Switch the RAM on or off. -/
def latch (m : Mapper) (v : UInt8) : Mapper :=
  { m with banks := m.banks.latch v }

/-- Replace the registers and select the banks that they ask for. -/
def withControls (m : Mapper) (c : Controls) : Mapper :=
  refresh { m with controls := c }

/-- A write of the processor to a ROM address. -/
def writeControl (m : Mapper) (addr : UInt16) (v : UInt8) : Mapper :=
  match m.controls with
  | .none => m
  | .mbc1 low high mode =>
    if addr < 0x2000 then m.latch v
    else if addr < 0x4000 then m.withControls (.mbc1 (v &&& 0x7F) high mode)
    else if addr < 0x6000 then m.withControls (.mbc1 low (v &&& 0x03) mode)
    else m.withControls (.mbc1 low high (v &&& 0x01))
  | .mbc2 _ =>
    if addr ≥ 0x4000 then m
    -- Bit eight of the address picks the register.
    else if addr.toNat.testBit 8 then m.withControls (.mbc2 (v &&& 0x0F))
    else m.latch v
  | .mbc3 rom ram =>
    if addr < 0x2000 then m.latch v
    else if addr < 0x4000 then m.withControls (.mbc3 (v &&& 0x7F) ram)
    else if addr < 0x6000 then m.withControls (.mbc3 rom (v &&& 0x03))
    else m
  | .mbc5 low high ram =>
    if addr < 0x2000 then m.latch v
    else if addr < 0x3000 then m.withControls (.mbc5 v high ram)
    else if addr < 0x4000 then m.withControls (.mbc5 low (v &&& 0x01) ram)
    else if addr < 0x6000 then m.withControls (.mbc5 low high (v &&& 0x0F))
    else m

/-- The place in the image that a ROM address shows. -/
def romOffset (m : Mapper) (addr : UInt16) : Nat :=
  if addr < 0x4000 then addr.toNat
  else m.romBank * romBankSize + addr.toNat % romBankSize

/-- How many four-bit cells of RAM an MBC2 has. -/
def mbc2Cells : Nat := 512

/-- The place in the RAM that an address from `0xA000` to `0xBFFF` shows; the cells of an MBC2
repeat over the whole window. -/
def ramOffset (m : Mapper) (addr : UInt16) : Nat :=
  match m.controls with
  | .mbc2 _ => addr.toNat % mbc2Cells
  | _ => m.ramBank * ramBankSize + addr.toNat % ramBankSize

/-- Read the RAM through the controller; the upper nibble of an MBC2 cell reads as ones. -/
def readRam (m : Mapper) (ram : Array UInt8) (addr : UInt16) : UInt8 :=
  match m.controls with
  | .mbc2 _ => 0xF0 ||| (ram.getD (m.ramOffset addr) 0x0F &&& 0x0F)
  | _ => ram.getD (m.ramOffset addr) 0xFF

/-- Write the RAM through the controller; an MBC2 keeps only the low nibble. -/
def writeRam (m : Mapper) (ram : Array UInt8) (addr : UInt16) (v : UInt8) : Array UInt8 :=
  match m.controls with
  | .mbc2 _ => ram.setIfInBounds (m.ramOffset addr) (v &&& 0x0F)
  | _ => ram.setIfInBounds (m.ramOffset addr) v

/-- The saved selection: both bank numbers at once, reduced to the banks that there are. -/
def banksRecord : Record Mapper := [
  .field (fun _ => .block 3)
    (fun m => .block (littleEndian 2 m.banks.rom ++ littleEndian 1 m.banks.ram))
    fun d m =>
      match d with
      | .block bytes =>
        let rom := ofLittleEndian (bytes.take 2)
        let ram := ofLittleEndian (bytes.drop 2)
        .ok { m with banks := m.banks.select rom ram }
      | _ => .ok m,
  .flag (·.banks.ramOn) fun v m => { m with banks := { m.banks with ramOn := v } }]

/-- A register in the saved form: its value, and how to replace it. -/
def control (get : Controls → UInt8) (put : UInt8 → Controls → Controls) : Item Mapper :=
  .byte (fun m => get m.controls) fun v m => { m with controls := put v m.controls }

/-- Like `control`, for the last register: what it completes selects the banks. -/
def lastControl (get : Controls → UInt8) (put : UInt8 → Controls → Controls) : Item Mapper :=
  .byte (fun m => get m.controls) fun v m => m.withControls (put v m.controls)

/-- The saved registers of a controller. -/
def controlsRecord : MapperKind → Record Mapper
  | .none => []
  | .mbc1 => [
    control (fun | .mbc1 low _ _ => low | _ => 0)
      (fun v => fun | .mbc1 _ high mode => .mbc1 (v &&& 0x7F) high mode | c => c),
    control (fun | .mbc1 _ high _ => high | _ => 0)
      (fun v => fun | .mbc1 low _ mode => .mbc1 low (v &&& 0x03) mode | c => c),
    lastControl (fun | .mbc1 _ _ mode => mode | _ => 0)
      (fun v => fun | .mbc1 low high _ => .mbc1 low high (v &&& 0x01) | c => c)]
  | .mbc2 => [
    lastControl (fun | .mbc2 bank => bank | _ => 0)
      (fun v => fun | .mbc2 _ => .mbc2 (v &&& 0x0F) | c => c)]
  | .mbc3 => [
    control (fun | .mbc3 rom _ => rom | _ => 0)
      (fun v => fun | .mbc3 _ ram => .mbc3 (v &&& 0x7F) ram | c => c),
    lastControl (fun | .mbc3 _ ram => ram | _ => 0)
      (fun v => fun | .mbc3 rom _ => .mbc3 rom (v &&& 0x03) | c => c)]
  | .mbc5 => [
    control (fun | .mbc5 low _ _ => low | _ => 0)
      (fun v => fun | .mbc5 _ high ram => .mbc5 v high ram | c => c),
    control (fun | .mbc5 _ high _ => high | _ => 0)
      (fun v => fun | .mbc5 low _ ram => .mbc5 low (v &&& 0x01) ram | c => c),
    lastControl (fun | .mbc5 _ _ ram => ram | _ => 0)
      (fun v => fun | .mbc5 low high _ => .mbc5 low high (v &&& 0x0F) | c => c)]

/-- The saved form of a controller of a given kind. -/
def record (kind : MapperKind) : Record Mapper :=
  banksRecord ++ controlsRecord kind

end Mapper

end Handheld
