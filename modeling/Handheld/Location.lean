/-!
# The address space

`Location.ofAddress` is the memory map: it says which part of the console answers at an address, and
with which of its cells.  Work memory is visible a second time from `0xE000` on.
-/

namespace Handheld

/-- What answers at an address. -/
inductive Location
  /-- The cartridge, or the start-up program in front of it. -/
  | rom (addr : UInt16)
  | videoRam (i : Fin 0x2000)
  | cartridgeRam (addr : UInt16)
  | workRam (i : Fin 0x2000)
  | spriteRam (i : Fin 0xA0)
  | joypad
  /-- The serial link, with the low byte of the address. -/
  | serial (r : UInt8)
  /-- The timer, with the low byte of the address. -/
  | timer (r : UInt8)
  | interruptRequest
  /-- The sound hardware, with the low byte of the address. -/
  | sound (r : UInt8)
  | dma
  /-- The display, with the low byte of the address. -/
  | display (r : UInt8)
  | bootLatch
  | highRam (i : Fin 0x7F)
  | interruptEnable
  /-- Nothing. -/
  | unmapped
  deriving DecidableEq

namespace Location

/-- The locations in the last page, by the low byte of the address. -/
def ofLastPage (r : UInt8) : Location :=
  let n := r.toNat
  if n = 0x00 then joypad
  else if n = 0x01 ∨ n = 0x02 then serial r
  else if 0x04 ≤ n ∧ n ≤ 0x07 then timer r
  else if n = 0x0F then interruptRequest
  else if 0x10 ≤ n ∧ n ≤ 0x3F then sound r
  else if n = 0x46 then dma
  else if 0x40 ≤ n ∧ n ≤ 0x4B then display r
  else if n = 0x50 then bootLatch
  else if h : 0x80 ≤ n ∧ n < 0xFF then highRam ⟨n - 0x80, by omega⟩
  else if n = 0xFF then interruptEnable
  else unmapped

/-- What answers at an address. -/
def ofAddress (addr : UInt16) : Location :=
  let n := addr.toNat
  if n < 0x8000 then rom addr
  else if h : n < 0xA000 then videoRam ⟨n - 0x8000, by omega⟩
  else if n < 0xC000 then cartridgeRam addr
  else if h : n < 0xE000 then workRam ⟨n - 0xC000, by omega⟩
  else if h : n < 0xFE00 then workRam ⟨n - 0xE000, by omega⟩
  else if h : n < 0xFEA0 then spriteRam ⟨n - 0xFE00, by omega⟩
  else if n < 0xFF00 then unmapped
  else ofLastPage addr.toUInt8

end Location

end Handheld
