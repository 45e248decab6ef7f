import Handheld.Word

/-!
# The register file

`Flags` are the four condition bits that arithmetic leaves behind; as a byte they fill the high
nibble of the low half of AF, and the low nibble does not exist.  `Registers` holds the seven byte
registers, the flags, the stack pointer and the program counter, with the four register pairs as
views.  `RegisterId` names every register that a debugger can ask for.
-/

namespace Handheld

/-- The condition bits. -/
structure Flags where
  /-- The last result was zero. -/
  zero : Bool := false
  /-- The last operation was a subtraction. -/
  subtract : Bool := false
  /-- The last operation carried out of the low nibble. -/
  halfCarry : Bool := false
  /-- The last operation carried out of the byte. -/
  carry : Bool := false
  deriving DecidableEq, Inhabited

namespace Flags

/-- The flags in the high nibble of a byte; the low nibble is ignored. -/
def ofByte (b : UInt8) : Flags where
  zero := Byte.bit b 7
  subtract := Byte.bit b 6
  halfCarry := Byte.bit b 5
  carry := Byte.bit b 4

/-- The flags as the high nibble of a byte with a clear low nibble. -/
def toByte (f : Flags) : UInt8 :=
  Byte.ofBit 7 f.zero ||| Byte.ofBit 6 f.subtract ||| Byte.ofBit 5 f.halfCarry |||
    Byte.ofBit 4 f.carry

@[simp] theorem ofByte_toByte (f : Flags) : ofByte f.toByte = f := by
  rcases f with ⟨_ | _, _ | _, _ | _, _ | _⟩ <;> decide

/-- The low nibble of the byte is clear. -/
theorem toByte_and_low (f : Flags) : f.toByte &&& 0x0F = 0 := by
  rcases f with ⟨_ | _, _ | _, _ | _, _ | _⟩ <;> decide

/-- Of a byte that is stored into the flags only the high nibble is left. -/
theorem toByte_ofByte (b : UInt8) : (ofByte b).toByte = b &&& 0xF0 := by
  refine Byte.ext_bits fun i hi => ?_
  have hmask : Byte.bit 0xF0 i = decide (4 ≤ i) := by
    revert i
    decide
  rw [toByte, Byte.bit_or, Byte.bit_or, Byte.bit_or, Byte.bit_ofBit (by decide) _ hi,
    Byte.bit_ofBit (by decide) _ hi, Byte.bit_ofBit (by decide) _ hi,
    Byte.bit_ofBit (by decide) _ hi, Byte.bit_and, hmask]
  rcases (by omega : i < 4 ∨ i = 4 ∨ i = 5 ∨ i = 6 ∨ i = 7) with hlow | rfl | rfl | rfl | rfl
  · have hne : i ≠ 7 ∧ i ≠ 6 ∧ i ≠ 5 ∧ i ≠ 4 := by omega
    simp [hlow, hne]
  all_goals simp [ofByte]

end Flags

/-- The registers of the processor that programs name. -/
structure Registers where
  a : UInt8 := 0
  f : Flags := {}
  b : UInt8 := 0
  c : UInt8 := 0
  d : UInt8 := 0
  e : UInt8 := 0
  h : UInt8 := 0
  l : UInt8 := 0
  sp : UInt16 := 0
  pc : UInt16 := 0
  deriving DecidableEq, Inhabited

namespace Registers

/-- The accumulator and the flags as a word. -/
def af (r : Registers) : UInt16 := Word.join r.a r.f.toByte

/-- The pair BC. -/
def bc (r : Registers) : UInt16 := Word.join r.b r.c

/-- The pair DE. -/
def de (r : Registers) : UInt16 := Word.join r.d r.e

/-- The pair HL. -/
def hl (r : Registers) : UInt16 := Word.join r.h r.l

/-- Store a word into AF; its low nibble is lost. -/
def setAf (r : Registers) (v : UInt16) : Registers :=
  { r with a := Word.high v, f := Flags.ofByte (Word.low v) }

/-- Store a word into BC. -/
def setBc (r : Registers) (v : UInt16) : Registers :=
  { r with b := Word.high v, c := Word.low v }

/-- Store a word into DE. -/
def setDe (r : Registers) (v : UInt16) : Registers :=
  { r with d := Word.high v, e := Word.low v }

/-- Store a word into HL. -/
def setHl (r : Registers) (v : UInt16) : Registers :=
  { r with h := Word.high v, l := Word.low v }

/-- The values that the start-up program leaves behind. -/
def postBoot : Registers :=
  { (((({} : Registers).setAf 0x01B0).setBc 0x0013).setDe 0x00D8).setHl 0x014D with
    sp := 0xFFFE, pc := 0x0100 }

@[simp] theorem bc_setBc (r : Registers) (v : UInt16) : (r.setBc v).bc = v := by
  simp [bc, setBc]

@[simp] theorem de_setDe (r : Registers) (v : UInt16) : (r.setDe v).de = v := by
  simp [de, setDe]

@[simp] theorem hl_setHl (r : Registers) (v : UInt16) : (r.setHl v).hl = v := by
  simp [hl, setHl]

end Registers

/-- The registers that a debugger can name. -/
inductive RegisterId
  | a | f | b | c | d | e | h | l
  | af | bc | de | hl | pc | sp
  | ime | interruptEnable | interruptRequest
  | halt | stop
  deriving DecidableEq

namespace RegisterId

/-- Every register, in the order of its index. -/
def all : List RegisterId :=
  [a, f, b, c, d, e, h, l, af, bc, de, hl, pc, sp, ime, interruptEnable, interruptRequest,
    halt, stop]

/-- How many registers there are. -/
def count : Nat := 19

/-- The position of a register in `all`. -/
def index : RegisterId → Nat
  | a => 0 | f => 1 | b => 2 | c => 3 | d => 4 | e => 5 | h => 6 | l => 7
  | af => 8 | bc => 9 | de => 10 | hl => 11 | pc => 12 | sp => 13
  | ime => 14 | interruptEnable => 15 | interruptRequest => 16 | halt => 17 | stop => 18

/-- The register with a given index. -/
def ofIndex? (i : Nat) : Option RegisterId := all[i]?

/-- The largest value that a register can hold. -/
def maxValue : RegisterId → UInt32
  | af | bc | de | hl | pc | sp => 0xFFFF
  | ime | halt | stop => 1
  | _ => 0xFF

/-- The usual name of a register. -/
def name : RegisterId → String
  | a => "A" | f => "F" | b => "B" | c => "C" | d => "D" | e => "E" | h => "H" | l => "L"
  | af => "AF" | bc => "BC" | de => "DE" | hl => "HL" | pc => "PC" | sp => "SP"
  | ime => "IME" | interruptEnable => "IE" | interruptRequest => "IF"
  | halt => "HALT" | stop => "STOP"

@[simp] theorem ofIndex?_index (r : RegisterId) : ofIndex? r.index = some r := by
  cases r <;> rfl

theorem length_all : all.length = count := rfl

end RegisterId

end Handheld
