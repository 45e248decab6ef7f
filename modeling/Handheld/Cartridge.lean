import Handheld.Cartridge.Mapper

/-!
# Cartridges

A `Cartridge` is an accepted image with its header, its RAM and its bank controller.
-/

namespace Handheld

/-- A cartridge in use. -/
structure Cartridge where
  header : Header
  /-- The whole image. -/
  rom : Array UInt8
  /-- The whole RAM, all banks. -/
  ram : Array UInt8
  mapper : Mapper
  deriving DecidableEq

namespace Cartridge

/-- The cartridge with a given image, fresh from the factory: its RAM is zero. -/
def ofImage (image : Array UInt8) : Except Error Cartridge := do
  let header ← Header.parse image
  return {
    header := header
    rom := image
    ram := Array.replicate header.ramSize 0
    mapper := .fresh header }

/-- The byte at a ROM address. -/
def readRom (c : Cartridge) (addr : UInt16) : UInt8 :=
  c.rom.getD (c.mapper.romOffset addr) 0xFF

/-- Whether the RAM window shows RAM. -/
def ramVisible (c : Cartridge) : Bool :=
  c.mapper.ramEnabled && !c.ram.isEmpty

/-- The byte at a RAM address; it reads as ones where there is no RAM to see. -/
def readRam (c : Cartridge) (addr : UInt16) : UInt8 :=
  if c.ramVisible then c.mapper.readRam c.ram addr else 0xFF

/-- A write of the processor to a RAM address, lost where there is no RAM to see. -/
def writeRam (c : Cartridge) (addr : UInt16) (v : UInt8) : Cartridge :=
  if c.ramVisible then { c with ram := c.mapper.writeRam c.ram addr v } else c

/-- A write of the processor to a ROM address. -/
def writeControl (c : Cartridge) (addr : UInt16) (v : UInt8) : Cartridge :=
  { c with mapper := c.mapper.writeControl addr v }

/-- The saved form of the controller on this cartridge. -/
def mapperRecord (c : Cartridge) : Record Cartridge :=
  (Mapper.record c.mapper.kind).within (·.mapper) fun m c => { c with mapper := m }

/-- The saved form of the RAM. -/
def ramRecord : Record Cartridge :=
  [.array (·.ram) fun ram c => { c with ram := ram }]

end Cartridge

end Handheld
