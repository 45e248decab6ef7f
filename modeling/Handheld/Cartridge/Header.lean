import Handheld.Error
import Handheld.Text.Trim
import Handheld.Text.Utf8

/-!
# Cartridge headers

A cartridge image describes itself in the bytes from `0x134` to `0x14D`: a title, the controller
that switches its banks, the number of ROM and RAM banks, and a checksum over all of that.
`Header.parse` reads the description and refuses an image that contradicts it; its checks come in
a fixed order, so an image with several defects is refused for the first of them.
-/

namespace Handheld

/-- The size of a ROM bank. -/
def romBankSize : Nat := 0x4000

/-- The size of a RAM bank. -/
def ramBankSize : Nat := 0x2000

/-- The controller on a cartridge that switches its banks. -/
inductive MapperKind
  | none
  | mbc1
  | mbc2
  | mbc3
  | mbc5
  deriving DecidableEq

namespace MapperKind

/-- The name of a controller. -/
def name : MapperKind → String
  | none => "None"
  | mbc1 => "Mbc1"
  | mbc2 => "Mbc2"
  | mbc3 => "Mbc3"
  | mbc5 => "Mbc5"

/-- The controller that a cartridge type code names, and whether a battery keeps the RAM. -/
def ofCode? (code : UInt8) : Option (MapperKind × Bool) :=
  match code.toNat with
  | 0x00 | 0x08 => some (none, false)
  | 0x09 => some (none, true)
  | 0x01 | 0x02 => some (mbc1, false)
  | 0x03 => some (mbc1, true)
  | 0x05 => some (mbc2, false)
  | 0x06 => some (mbc2, true)
  | 0x11 | 0x12 => some (mbc3, false)
  | 0x0F | 0x10 | 0x13 => some (mbc3, true)
  | 0x19 | 0x1A | 0x1C | 0x1D => some (mbc5, false)
  | 0x1B | 0x1E => some (mbc5, true)
  | _ => Option.none

end MapperKind

/-- What a cartridge image says about itself. -/
structure Header where
  title : String
  kind : MapperKind
  /-- Whether a battery keeps the RAM while the cartridge is out of the console. -/
  battery : Bool
  romBanks : Nat
  ramBanks : Nat
  checksum : UInt8
  deriving DecidableEq

namespace Header

/-- The number of ROM banks that a size code names. -/
def romBanks? (code : UInt8) : Option Nat :=
  if code ≤ 8 then some (2 <<< code.toNat) else none

/-- The number of RAM banks that a size code names. -/
def ramBanks? (code : UInt8) : Option Nat :=
  match code.toNat with
  | 0 => some 0
  | 1 | 2 => some 1
  | 3 => some 4
  | 4 => some 16
  | 5 => some 8
  | _ => none

/-- The checksum over the description: from zero, take away each byte and one more. -/
def checksumOf (image : Array UInt8) : UInt8 :=
  (List.range' 0x134 25).foldl (fun sum i => sum - image.getD i 0 - 1) 0

/-- The title in an image, without the zero bytes that pad it. -/
def titleOf (image : Array UInt8) : String :=
  String.ofList (Text.trimBoth (· == '\x00') (Utf8.decode (image.extract 0x134 0x143).toList))

/-- Read the description of an image. -/
def parse (image : Array UInt8) : Except Error Header := do
  if image.size < romBankSize then
    throw (.imageTooShort image.size)
  let stored := image.getD 0x14D 0
  let computed := checksumOf image
  if stored ≠ computed then
    throw (.headerChecksum stored computed)
  if image.getD 0x143 0 = 0xC0 then
    throw .colorOnly
  let typeCode := image.getD 0x147 0
  let some (kind, battery) := MapperKind.ofCode? typeCode
    | throw (.unsupportedMapper typeCode)
  let romCode := image.getD 0x148 0
  let some romBanks := romBanks? romCode
    | throw (.unsupportedRomSize romCode)
  let ramCode := image.getD 0x149 0
  let some ramBanks := ramBanks? ramCode
    | throw (.unsupportedRamSize ramCode)
  if image.size ≠ romBanks * romBankSize then
    throw (.lengthMismatch (romBanks * romBankSize) image.size)
  return {
    title := titleOf image
    kind := kind
    battery := battery
    romBanks := romBanks
    -- An MBC2 has its own RAM, whatever the size code says.
    ramBanks := if kind = .mbc2 then 1 else ramBanks
    checksum := stored }

/-- How many bytes of RAM the cartridge has. -/
def ramSize (h : Header) : Nat :=
  h.ramBanks * ramBankSize

end Header

end Handheld
