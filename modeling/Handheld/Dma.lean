import Handheld.Record
import Handheld.Word

/-!
# The transfer into sprite memory

A program fills the sprite memory by naming a page of the address space: its first `Dma.length`
bytes then go over, one in each cycle, while the processor goes on.
-/

namespace Handheld

/-- The state of the transfer. -/
structure Dma where
  /-- The page that was named last. -/
  page : UInt8 := 0
  active : Bool := false
  /-- How many bytes have gone over. -/
  index : UInt8 := 0
  deriving DecidableEq, Inhabited

namespace Dma

/-- How many bytes a transfer moves. -/
def length : UInt8 := 0xA0

/-- Begin a transfer. -/
def start (page : UInt8) : Dma where
  page := page
  active := true
  index := 0

/-- The address of the next byte. -/
def source (d : Dma) : UInt16 := Word.join d.page d.index

/-- The transfer after one more byte. -/
def next (d : Dma) : Dma :=
  { d with index := d.index + 1, active := d.index + 1 != length }

/-- The saved form of the transfer. -/
def record : Record Dma := [
  .byte (·.page) fun v d => { d with page := v },
  .flag (·.active) fun v d => { d with active := v },
  .byte (·.index) fun v d => { d with index := v },
  .check .dmaIndex fun d => d.index ≤ length && !(d.active && d.index == length)]

end Dma

end Handheld
