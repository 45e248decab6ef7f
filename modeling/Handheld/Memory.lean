import Handheld.Diagnostic
import Handheld.Interrupt

/-!
# What the processor sees

`Memory` is the interface between the processor and the rest of a machine: an address space, an
interrupt controller, and somewhere to report oddities.  Reading returns the memory as well, since
an access may be worth a report.  `FlatMemory` is the simplest instance, an address space in which
every address is a cell of its own.
-/

namespace Handheld

/-- An address space with an interrupt controller. -/
class Memory (μ : Type) where
  /-- The byte at an address. -/
  read : μ → UInt16 → UInt8 × μ
  /-- Store a byte at an address. -/
  write : μ → UInt16 → UInt8 → μ
  /-- The interrupt controller. -/
  controller : μ → InterruptController
  /-- Replace the interrupt controller. -/
  setController : μ → InterruptController → μ
  /-- Report a diagnostic. -/
  report : μ → Diagnostic → μ

/-- A memory of `2 ^ 16` independent cells. -/
structure FlatMemory where
  cells : UInt16 → UInt8
  interrupts : InterruptController := {}

namespace FlatMemory

/-- The memory with one cell replaced. -/
def set (m : FlatMemory) (addr : UInt16) (v : UInt8) : FlatMemory :=
  { m with cells := fun a => if a = addr then v else m.cells a }

instance : Memory FlatMemory where
  read m addr := (m.cells addr, m)
  write := set
  controller := interrupts
  setController m c := { m with interrupts := c }
  report m _ := m

end FlatMemory

end Handheld
