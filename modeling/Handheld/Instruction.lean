import Handheld.Word

/-!
# Instructions

An `Instruction` is what a first opcode byte asks for, apart from its immediate operand, and an
`ExtendedInstruction` is what the byte after `0xCB` asks for.  `Instruction.decode` and
`ExtendedInstruction.decode` read the opcodes by their fields: the two top bits, the three bits
below them, and the three lowest bits.  `Instruction.operand` says which immediate operand
follows, and `Instruction.cycles` and `Instruction.takenCycles` say what the instruction costs.
-/

namespace Handheld

/-- Where an instruction finds or leaves a byte. -/
inductive Place
  | b | c | d | e | h | l
  /-- The memory cell that HL points to. -/
  | atHl
  | a
  deriving DecidableEq

/-- A word register of the arithmetic instructions. -/
inductive Pair
  | bc | de | hl | sp
  deriving DecidableEq

/-- A word register of the stack instructions. -/
inductive StackPair
  | bc | de | hl | af
  deriving DecidableEq

/-- A condition on the flags. -/
inductive Condition
  | always | notZero | zero | notCarry | carry
  deriving DecidableEq

/-- A memory cell that the accumulator can be exchanged with. -/
inductive Pointer
  | bc | de
  /-- The cell at HL, which is then incremented. -/
  | hlIncrement
  /-- The cell at HL, which is then decremented. -/
  | hlDecrement
  /-- The cell in the last page whose low address byte is the operand. -/
  | pageOperand
  /-- The cell in the last page whose low address byte is C. -/
  | pageC
  /-- The cell whose address is the operand. -/
  | operand
  deriving DecidableEq

/-- An operation of the accumulator and a byte. -/
inductive AluOp
  | add | adc | sub | sbc | and | xor | or | cp
  deriving DecidableEq

/-- A rotation or shift of a byte. -/
inductive ShiftOp
  | rlc | rrc | rl | rr | sla | sra | swap | srl
  deriving DecidableEq

/-- The immediate operand of an instruction. -/
inductive Operand
  | none | byte | word
  deriving DecidableEq

namespace Operand

/-- How many bytes the operand takes. -/
def length : Operand → Nat
  | none => 0
  | byte => 1
  | word => 2

/-- The name of a kind of operand. -/
def name : Operand → String
  | none => "None"
  | byte => "Byte"
  | word => "Word"

end Operand

/-- What a first opcode byte asks for. -/
inductive Instruction
  | nop
  /-- Load a word register with the operand. -/
  | loadPair (r : Pair)
  | incPair (r : Pair)
  | decPair (r : Pair)
  /-- Add a word register to HL. -/
  | addHl (r : Pair)
  /-- Store SP at the operand. -/
  | storeSp
  /-- Add the signed operand to SP. -/
  | addSp
  /-- Load HL with SP plus the signed operand. -/
  | loadHlSp
  /-- Load SP with HL. -/
  | loadSpHl
  | storeA (target : Pointer)
  | loadA (source : Pointer)
  | inc (r : Place)
  | dec (r : Place)
  /-- Load a place with the operand. -/
  | loadOperand (r : Place)
  /-- Rotate the accumulator and clear the zero flag. -/
  | rotateA (op : ShiftOp)
  /-- Adjust the accumulator after decimal arithmetic. -/
  | daa
  /-- Complement the accumulator. -/
  | cpl
  /-- Set the carry flag. -/
  | scf
  /-- Complement the carry flag. -/
  | ccf
  | stop
  | halt
  | load (target source : Place)
  | alu (op : AluOp) (source : Place)
  | aluOperand (op : AluOp)
  /-- Jump by the signed operand. -/
  | jumpRelative (cond : Condition)
  /-- Jump to the operand. -/
  | jump (cond : Condition)
  | jumpHl
  /-- Call the operand. -/
  | call (cond : Condition)
  | ret (cond : Condition)
  /-- Return and allow interrupts. -/
  | reti
  /-- Call one of eight fixed addresses. -/
  | restart (target : UInt8)
  | pop (r : StackPair)
  | push (r : StackPair)
  | disableInterrupts
  | enableInterrupts
  /-- The byte that announces an extended instruction. -/
  | extended
  /-- An opcode without a meaning. -/
  | illegal
  deriving DecidableEq

/-- What the byte after `0xCB` asks for. -/
inductive ExtendedInstruction
  | shift (op : ShiftOp) (r : Place)
  | test (bit : Nat) (r : Place)
  | reset (bit : Nat) (r : Place)
  | set (bit : Nat) (r : Place)
  deriving DecidableEq

namespace Place

/-- The place with a given field value; only the three low bits of the field count. -/
def ofField (n : Nat) : Place :=
  match n % 8 with
  | 0 => b | 1 => c | 2 => d | 3 => e | 4 => h | 5 => l | 6 => atHl | _ => a

end Place

namespace Pair

/-- The pair with a given field value; only the two low bits of the field count. -/
def ofField (n : Nat) : Pair :=
  match n % 4 with
  | 0 => bc | 1 => de | 2 => hl | _ => sp

end Pair

namespace StackPair

/-- The pair with a given field value; only the two low bits of the field count. -/
def ofField (n : Nat) : StackPair :=
  match n % 4 with
  | 0 => bc | 1 => de | 2 => hl | _ => af

end StackPair

namespace Condition

/-- The condition with a given field value; only the two low bits of the field count. -/
def ofField (n : Nat) : Condition :=
  match n % 4 with
  | 0 => notZero | 1 => zero | 2 => notCarry | _ => carry

end Condition

namespace AluOp

/-- The operation with a given field value; only the three low bits of the field count. -/
def ofField (n : Nat) : AluOp :=
  match n % 8 with
  | 0 => add | 1 => adc | 2 => sub | 3 => sbc | 4 => and | 5 => xor | 6 => or | _ => cp

end AluOp

namespace ShiftOp

/-- The operation with a given field value; only the three low bits of the field count. -/
def ofField (n : Nat) : ShiftOp :=
  match n % 8 with
  | 0 => rlc | 1 => rrc | 2 => rl | 3 => rr | 4 => sla | 5 => sra | 6 => swap | _ => srl

end ShiftOp

namespace Instruction

/-- The opcodes below `0x40`, by their middle and their low field. -/
def decodeLow (middle low : Nat) : Instruction :=
  match low with
  | 0 =>
    match middle with
    | 0 => nop
    | 1 => storeSp
    | 2 => stop
    | 3 => jumpRelative .always
    | _ => jumpRelative (.ofField middle)
  | 1 => if middle % 2 = 0 then loadPair (.ofField (middle / 2)) else addHl (.ofField (middle / 2))
  | 2 =>
    match middle with
    | 0 => storeA .bc
    | 1 => loadA .bc
    | 2 => storeA .de
    | 3 => loadA .de
    | 4 => storeA .hlIncrement
    | 5 => loadA .hlIncrement
    | 6 => storeA .hlDecrement
    | _ => loadA .hlDecrement
  | 3 => if middle % 2 = 0 then incPair (.ofField (middle / 2)) else decPair (.ofField (middle / 2))
  | 4 => inc (.ofField middle)
  | 5 => dec (.ofField middle)
  | 6 => loadOperand (.ofField middle)
  | _ =>
    match middle with
    | 4 => daa
    | 5 => cpl
    | 6 => scf
    | 7 => ccf
    | _ => rotateA (.ofField middle)

/-- The opcodes from `0xC0` on, by their middle and their low field. -/
def decodeHigh (middle low : Nat) : Instruction :=
  match low with
  | 0 =>
    match middle with
    | 4 => storeA .pageOperand
    | 5 => addSp
    | 6 => loadA .pageOperand
    | 7 => loadHlSp
    | _ => ret (.ofField middle)
  | 1 =>
    match middle with
    | 1 => ret .always
    | 3 => reti
    | 5 => jumpHl
    | 7 => loadSpHl
    | _ => pop (.ofField (middle / 2))
  | 2 =>
    match middle with
    | 4 => storeA .pageC
    | 5 => storeA .operand
    | 6 => loadA .pageC
    | 7 => loadA .operand
    | _ => jump (.ofField middle)
  | 3 =>
    match middle with
    | 0 => jump .always
    | 1 => extended
    | 6 => disableInterrupts
    | 7 => enableInterrupts
    | _ => illegal
  | 4 => if middle < 4 then call (.ofField middle) else illegal
  | 5 =>
    if middle % 2 = 0 then push (.ofField (middle / 2))
    else if middle = 1 then call .always
    else illegal
  | 6 => aluOperand (.ofField middle)
  | _ => restart (UInt8.ofNat (8 * middle))

/-- What an opcode asks for. -/
def decode (opcode : UInt8) : Instruction :=
  let n := opcode.toNat
  let middle := n / 8 % 8
  let low := n % 8
  match n / 64 with
  | 0 => decodeLow middle low
  | 1 => if n = 0x76 then halt else load (.ofField middle) (.ofField low)
  | 2 => alu (.ofField middle) (.ofField low)
  | _ => decodeHigh middle low

/-- The immediate operand that follows the opcode; the one of `stop` has no effect. -/
def operand : Instruction → Operand
  | loadPair _ | storeSp | jump _ | call _ => .word
  | storeA .operand | loadA .operand => .word
  | storeA .pageOperand | loadA .pageOperand => .byte
  | addSp | loadHlSp | loadOperand _ | aluOperand _ | jumpRelative _ | stop => .byte
  | _ => .none

/-- What an access to a place costs more than an access to a register. -/
def placeCycles : Place → UInt32
  | .atHl => 4
  | _ => 0

/-- The cost of an instruction; of a conditional one, if its condition does not hold. -/
def cycles : Instruction → UInt32
  | nop | rotateA _ | daa | cpl | scf | ccf | stop | halt | jumpHl => 4
  | disableInterrupts | enableInterrupts | extended | illegal => 4
  | loadPair _ => 12
  | incPair _ | decPair _ | addHl _ | loadSpHl => 8
  | storeSp => 20
  | addSp => 16
  | loadHlSp => 12
  | storeA .operand | loadA .operand => 16
  | storeA .pageOperand | loadA .pageOperand => 12
  | storeA _ | loadA _ => 8
  | inc r | dec r => 4 + 2 * placeCycles r
  | loadOperand r => 8 + placeCycles r
  | load target source => 4 + (if target = .atHl ∨ source = .atHl then 4 else 0)
  | alu _ source => 4 + placeCycles source
  | aluOperand _ => 8
  | jumpRelative cond => if cond = .always then 12 else 8
  | jump cond => if cond = .always then 16 else 12
  | call cond => if cond = .always then 24 else 12
  | ret cond => if cond = .always then 16 else 8
  | reti | restart _ | push _ => 16
  | pop _ => 12

/-- The cost of an instruction; of a conditional one, if its condition holds. -/
def takenCycles : Instruction → UInt32
  | jumpRelative _ => 12
  | jump _ => 16
  | call _ => 24
  | ret cond => if cond = .always then 16 else 20
  | i => i.cycles

end Instruction

namespace ExtendedInstruction

/-- What the byte after `0xCB` asks for. -/
def decode (opcode : UInt8) : ExtendedInstruction :=
  let n := opcode.toNat
  let middle := n / 8 % 8
  let r := Place.ofField n
  match n / 64 with
  | 0 => shift (.ofField middle) r
  | 1 => test middle r
  | 2 => reset middle r
  | _ => set middle r

/-- The place that an extended instruction works on. -/
def place : ExtendedInstruction → Place
  | shift _ r | test _ r | reset _ r | set _ r => r

/-- The cost of an extended instruction, the byte `0xCB` included. -/
def cycles : ExtendedInstruction → UInt32
  | test _ .atHl => 12
  | shift _ .atHl | reset _ .atHl | set _ .atHl => 16
  | _ => 8

end ExtendedInstruction

end Handheld
