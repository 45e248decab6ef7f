import Handheld.Instruction
import Handheld.Registers

/-!
# Arithmetic

The operations of the processor on bytes and words, as functions from operands to a result and the
flags that it leaves.  `Alu.add` and `Alu.sub` take a carry; `Alu.decimalAdjust` corrects the
result of either when the operands were packed decimal numbers; `Alu.shift` holds the rotations
and shifts; `Alu.addWords` and `Alu.addSigned` are the two adders for words.
-/

namespace Handheld

namespace Alu

/-- The sum of two bytes and a carry. -/
def add (a v : UInt8) (carry : Bool) : UInt8 × Flags :=
  let c := carry.toNat
  let r := a + v + UInt8.ofNat c
  (r, { zero := r == 0
        subtract := false
        halfCarry := a.toNat % 16 + v.toNat % 16 + c > 15
        carry := a.toNat + v.toNat + c > 255 })

/-- The difference of two bytes and a carry. -/
def sub (a v : UInt8) (carry : Bool) : UInt8 × Flags :=
  let c := carry.toNat
  let r := a - v - UInt8.ofNat c
  (r, { zero := r == 0
        subtract := true
        halfCarry := a.toNat % 16 < v.toNat % 16 + c
        carry := a.toNat < v.toNat + c })

/-- A result of a logical operation; the conjunction alone sets the half carry. -/
def logic (r : UInt8) (halfCarry : Bool) : UInt8 × Flags :=
  (r, { zero := r == 0, halfCarry := halfCarry })

/-- The accumulator and the flags after an operation with a byte; a comparison keeps the
accumulator. -/
def apply (op : AluOp) (a v : UInt8) (carry : Bool) : UInt8 × Flags :=
  match op with
  | .add => add a v false
  | .adc => add a v carry
  | .sub => sub a v false
  | .sbc => sub a v carry
  | .and => logic (a &&& v) true
  | .xor => logic (a ^^^ v) false
  | .or => logic (a ||| v) false
  | .cp => (a, (sub a v false).2)

/-- A byte plus one; the carry is kept. -/
def inc (v : UInt8) (f : Flags) : UInt8 × Flags :=
  let r := v + 1
  (r, { f with zero := r == 0, subtract := false, halfCarry := v.toNat % 16 == 15 })

/-- A byte minus one; the carry is kept. -/
def dec (v : UInt8) (f : Flags) : UInt8 × Flags :=
  let r := v - 1
  (r, { f with zero := r == 0, subtract := true, halfCarry := v.toNat % 16 == 0 })

/-- Correct a sum or difference of packed decimal numbers, digit by digit. -/
def decimalAdjust (a : UInt8) (f : Flags) : UInt8 × Flags :=
  let (r, carry) :=
    if f.subtract then
      let high := if f.carry then a - 0x60 else a
      (if f.halfCarry then high - 0x06 else high, f.carry)
    else
      let carry := f.carry || a.toNat > 0x99
      let high := if carry then a + 0x60 else a
      (if f.halfCarry || high.toNat % 16 > 9 then high + 0x06 else high, carry)
  (r, { f with zero := r == 0, halfCarry := false, carry := carry })

/-- A rotated or shifted byte, and the bit that left it. -/
def shift (op : ShiftOp) (v : UInt8) (carry : Bool) : UInt8 × Bool :=
  match op with
  | .rlc => ((v <<< 1) ||| (v >>> 7), Byte.bit v 7)
  | .rrc => ((v >>> 1) ||| (v <<< 7), Byte.bit v 0)
  | .rl => ((v <<< 1) ||| Byte.ofBit 0 carry, Byte.bit v 7)
  | .rr => ((v >>> 1) ||| Byte.ofBit 7 carry, Byte.bit v 0)
  | .sla => (v <<< 1, Byte.bit v 7)
  | .sra => ((v >>> 1) ||| (v &&& 0x80), Byte.bit v 0)
  | .swap => (Byte.swapNibbles v, false)
  | .srl => (v >>> 1, Byte.bit v 0)

/-- The sum of two words; the zero flag is kept, and the half carry comes out of bit eleven. -/
def addWords (a v : UInt16) (f : Flags) : UInt16 × Flags :=
  (a + v, { f with
    subtract := false
    halfCarry := a.toNat % 4096 + v.toNat % 4096 > 4095
    carry := a.toNat + v.toNat > 65535 })

/-- The sum of a word and a signed byte; the flags come from the unsigned sum of the low bytes. -/
def addSigned (a : UInt16) (e : UInt8) : UInt16 × Flags :=
  (a + Word.ofSigned e, {
    halfCarry := a.toNat % 16 + e.toNat % 16 > 15
    carry := a.toNat % 256 + e.toNat > 255 })

end Alu

end Handheld
