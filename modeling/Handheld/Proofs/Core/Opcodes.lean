import Handheld.Proofs.Core.Flat
import Mathlib.Tactic.Lemma

/-!
# Places and opcodes

A place is a register or the cell at HL.  `Core.byteIn` is the byte that is there, `Core.withByte`
is what the registers and the memory become when another one is put there, and `Core.altered` is the
core after an instruction that has done so.

The decoder takes an opcode apart by its fields.  Here the opcodes are listed the other way round,
as for an assembler: `Opcode.alu` and the functions after it give the opcode for each operation and
each place.  The opcodes of an operation stand in a row, in which each place has its column
(`Opcode.column`).  The decoder reads them as they are meant (`Instruction.decode_alu`,
`ExtendedInstruction.decode_shift` and the lemmas after them).
-/

namespace Handheld

/-! ### Places -/

namespace Core

/-- The byte in a place. -/
def byteIn (s : Core FlatMemory) : Place → UInt8
  | .b => s.cpu.regs.b
  | .c => s.cpu.regs.c
  | .d => s.cpu.regs.d
  | .e => s.cpu.regs.e
  | .h => s.cpu.regs.h
  | .l => s.cpu.regs.l
  | .atHl => s.memory.cells (Word.join s.cpu.regs.h s.cpu.regs.l)
  | .a => s.cpu.regs.a

/-- The registers and the memory with another byte in a place. -/
def withByte (s : Core FlatMemory) (r : Place) (v : UInt8) : Registers × FlatMemory :=
  match r with
  | .b => ({ s.cpu.regs with b := v }, s.memory)
  | .c => ({ s.cpu.regs with c := v }, s.memory)
  | .d => ({ s.cpu.regs with d := v }, s.memory)
  | .e => ({ s.cpu.regs with e := v }, s.memory)
  | .h => ({ s.cpu.regs with h := v }, s.memory)
  | .l => ({ s.cpu.regs with l := v }, s.memory)
  | .atHl => (s.cpu.regs, s.memory.set (Word.join s.cpu.regs.h s.cpu.regs.l) v)
  | .a => ({ s.cpu.regs with a := v }, s.memory)

/-- The core after an instruction that has left a byte in a place, and certain flags. -/
def altered (s : Core FlatMemory) (r : Place) (v : UInt8) (f : Flags) (length : UInt16) :
    Core FlatMemory :=
  s.after { (s.withByte r v).1 with f := f, pc := s.cpu.regs.pc + length } (s.withByte r v).2

/-- An instruction that has passed its operand finds the same byte in a place as before. -/
lemma load_past (s : Core FlatMemory) (o : Operand) (r : Place) :
    (s.past o).load r = (s.byteIn r, s.past o) := by
  cases r <;> rfl

/-- An instruction leaves flags and a byte in a place. -/
lemma retireDelay_store_past (s : Core FlatMemory) (o : Operand) (f : Flags) (r : Place)
    (v : UInt8) :
    (((s.past o).setFlags f).store r v).retireDelay =
      s.altered r v f (UInt16.ofNat (1 + o.length)) := by
  rw [altered, ← retireDelay_eq_after]
  cases r <;> rfl

/-- The byte that was left is there. -/
lemma byteIn_altered (s : Core FlatMemory) (r : Place) (v : UInt8) (f : Flags) (length : UInt16) :
    (s.altered r v f length).byteIn r = v := by
  cases r with
  | atHl => exact s.memory.cells_set_self _ v
  | _ => rfl

end Core

/-! ### Opcodes -/

namespace Opcode

/-- Where a place stands in a row of opcodes. -/
def column : Place → UInt8
  | .b => 0
  | .c => 1
  | .d => 2
  | .e => 3
  | .h => 4
  | .l => 5
  | .atHl => 6
  | .a => 7

/-- The opcode of an operation of the accumulator with the byte in a place. -/
def alu (op : AluOp) (r : Place) : UInt8 :=
  column r + match op with
    | .add => 0x80
    | .adc => 0x88
    | .sub => 0x90
    | .sbc => 0x98
    | .and => 0xA0
    | .xor => 0xA8
    | .or => 0xB0
    | .cp => 0xB8

/-- The opcode of an operation of the accumulator with the operand. -/
def aluOperand : AluOp → UInt8
  | .add => 0xC6
  | .adc => 0xCE
  | .sub => 0xD6
  | .sbc => 0xDE
  | .and => 0xE6
  | .xor => 0xEE
  | .or => 0xF6
  | .cp => 0xFE

/-- The opcode for counting the byte in a place up. -/
def inc : Place → UInt8
  | .b => 0x04
  | .c => 0x0C
  | .d => 0x14
  | .e => 0x1C
  | .h => 0x24
  | .l => 0x2C
  | .atHl => 0x34
  | .a => 0x3C

/-- The opcode for counting the byte in a place down. -/
def dec : Place → UInt8
  | .b => 0x05
  | .c => 0x0D
  | .d => 0x15
  | .e => 0x1D
  | .h => 0x25
  | .l => 0x2D
  | .atHl => 0x35
  | .a => 0x3D

/-- The opcode for pushing a pair of registers. -/
def push : StackPair → UInt8
  | .bc => 0xC5
  | .de => 0xD5
  | .hl => 0xE5
  | .af => 0xF5

/-- The opcode for popping a pair of registers. -/
def pop : StackPair → UInt8
  | .bc => 0xC1
  | .de => 0xD1
  | .hl => 0xE1
  | .af => 0xF1

/-- The extended opcode of a rotation or shift. -/
def shift (op : ShiftOp) (r : Place) : UInt8 :=
  column r + match op with
    | .rlc => 0x00
    | .rrc => 0x08
    | .rl => 0x10
    | .rr => 0x18
    | .sla => 0x20
    | .sra => 0x28
    | .swap => 0x30
    | .srl => 0x38

/-- The extended opcode for testing a bit; for each bit there is a row. -/
def test (i : Fin 8) (r : Place) : UInt8 := 0x40 + 8 * UInt8.ofNat i + column r

/-- The extended opcode for clearing a bit. -/
def reset (i : Fin 8) (r : Place) : UInt8 := 0x80 + 8 * UInt8.ofNat i + column r

/-- The extended opcode for setting a bit. -/
def set (i : Fin 8) (r : Place) : UInt8 := 0xC0 + 8 * UInt8.ofNat i + column r

end Opcode

namespace Instruction

lemma decode_alu (op : AluOp) (r : Place) : decode (Opcode.alu op r) = .alu op r := by
  cases op <;> cases r <;> rfl

lemma decode_aluOperand (op : AluOp) : decode (Opcode.aluOperand op) = .aluOperand op := by
  cases op <;> rfl

lemma decode_inc (r : Place) : decode (Opcode.inc r) = .inc r := by
  cases r <;> rfl

lemma decode_dec (r : Place) : decode (Opcode.dec r) = .dec r := by
  cases r <;> rfl

lemma decode_push (r : StackPair) : decode (Opcode.push r) = .push r := by
  cases r <;> rfl

lemma decode_pop (r : StackPair) : decode (Opcode.pop r) = .pop r := by
  cases r <;> rfl

end Instruction

namespace ExtendedInstruction

lemma decode_shift (op : ShiftOp) (r : Place) : decode (Opcode.shift op r) = .shift op r := by
  cases op <;> cases r <;> rfl

lemma decode_test (i : Fin 8) (r : Place) : decode (Opcode.test i r) = .test i r := by
  revert i
  cases r <;> decide

lemma decode_reset (i : Fin 8) (r : Place) : decode (Opcode.reset i r) = .reset i r := by
  revert i
  cases r <;> decide

lemma decode_set (i : Fin 8) (r : Place) : decode (Opcode.set i r) = .set i r := by
  revert i
  cases r <;> decide

end ExtendedInstruction

/-! ### All opcodes -/

/-- To look at all bytes is to look at `256` numbers. -/
instance Byte.decidableForall {p : UInt8 → Prop} [DecidablePred p] : Decidable (∀ v, p v) :=
  decidable_of_iff (∀ n < 256, p (UInt8.ofNat n))
    ⟨fun h v => UInt8.ofNat_toNat (x := v) ▸ h v.toNat v.toNat_lt, fun h _ _ => h _⟩

namespace Opcode

/-- The operations of the accumulator with a place fill the third quarter of the opcodes. -/
lemma exists_alu {opcode : UInt8} (h : 0x80 ≤ opcode ∧ opcode ≤ 0xBF) :
    ∃ op r, opcode = alu op r := by
  have hfields : ∀ opcode : UInt8, 0x80 ≤ opcode ∧ opcode ≤ 0xBF →
      opcode = alu (.ofField (opcode.toNat / 8)) (.ofField opcode.toNat) := by
    decide +kernel
  exact ⟨_, _, hfields opcode h⟩

/-- Every extended opcode is a rotation or shift, or does something with a bit. -/
lemma exists_extended (opcode : UInt8) : (∃ op r, opcode = shift op r) ∨
    ∃ i r, opcode = test i r ∨ opcode = reset i r ∨ opcode = set i r := by
  have hfields : ∀ opcode : UInt8,
      opcode = shift (.ofField (opcode.toNat / 8)) (.ofField opcode.toNat) ∨
        let i := Fin.ofNat 8 (opcode.toNat / 8)
        let r := Place.ofField opcode.toNat
        opcode = test i r ∨ opcode = reset i r ∨ opcode = set i r := by
    decide +kernel
  exact (hfields opcode).imp (fun h => ⟨_, _, h⟩) fun h => ⟨_, _, h⟩

end Opcode

end Handheld
