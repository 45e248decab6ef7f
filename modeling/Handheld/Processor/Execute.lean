import Handheld.Alu
import Handheld.Memory
import Handheld.Processor

/-!
# Executing instructions

A `Core` is a processor with the memory that it works on.  `Core.execute` carries out an
instruction whose operand has been fetched, and tells whether a condition was met;
`Core.executeExtended` carries out an extended instruction.
-/

namespace Handheld

/-- A processor and its memory. -/
structure Core (μ : Type) where
  cpu : Processor
  memory : μ

namespace Core

variable {μ : Type} [Memory μ]

/-! ### Registers and memory -/

/-- The core with its registers replaced. -/
def withRegs (s : Core μ) (r : Registers) : Core μ :=
  { s with cpu := { s.cpu with regs := r } }

/-- The core with a new program counter. -/
def setPc (s : Core μ) (v : UInt16) : Core μ :=
  s.withRegs { s.cpu.regs with pc := v }

/-- The core with a new stack pointer. -/
def setSp (s : Core μ) (v : UInt16) : Core μ :=
  s.withRegs { s.cpu.regs with sp := v }

/-- The core with a new accumulator. -/
def setA (s : Core μ) (v : UInt8) : Core μ :=
  s.withRegs { s.cpu.regs with a := v }

/-- The core with new flags. -/
def setFlags (s : Core μ) (f : Flags) : Core μ :=
  s.withRegs { s.cpu.regs with f := f }

/-- The core with a new accumulator and new flags. -/
def setResult (s : Core μ) (r : UInt8 × Flags) : Core μ :=
  s.withRegs { s.cpu.regs with a := r.1, f := r.2 }

/-- Read the memory. -/
def read (s : Core μ) (addr : UInt16) : UInt8 × Core μ :=
  match s with
  | ⟨cpu, memory⟩ =>
    let (v, memory) := Memory.read memory addr
    (v, ⟨cpu, memory⟩)

/-- Write the memory. -/
def write (s : Core μ) (addr : UInt16) (v : UInt8) : Core μ :=
  match s with
  | ⟨cpu, memory⟩ => ⟨cpu, Memory.write memory addr v⟩

/-- Report a diagnostic. -/
def report (s : Core μ) (d : Diagnostic) : Core μ :=
  match s with
  | ⟨cpu, memory⟩ => ⟨cpu, Memory.report memory d⟩

/-- Read the byte at the program counter and move on. -/
def fetch (s : Core μ) : UInt8 × Core μ :=
  let pc := s.cpu.regs.pc
  let (v, s) := s.read pc
  (v, s.setPc (pc + 1))

/-- Read an immediate operand; a word has its low byte first. -/
def fetchOperand (s : Core μ) : Operand → UInt16 × Core μ
  | .none => (0, s)
  | .byte =>
    let (v, s) := s.fetch
    (v.toUInt16, s)
  | .word =>
    let (lo, s) := s.fetch
    let (hi, s) := s.fetch
    (Word.join hi lo, s)

/-- Push a word: its high byte goes below the stack pointer, and its low byte below that. -/
def push (s : Core μ) (v : UInt16) : Core μ :=
  let s := s.setSp (s.cpu.regs.sp - 1)
  let s := s.write s.cpu.regs.sp (Word.high v)
  let s := s.setSp (s.cpu.regs.sp - 1)
  s.write s.cpu.regs.sp (Word.low v)

/-- Pop a word. -/
def pop (s : Core μ) : UInt16 × Core μ :=
  let (lo, s) := s.read s.cpu.regs.sp
  let s := s.setSp (s.cpu.regs.sp + 1)
  let (hi, s) := s.read s.cpu.regs.sp
  let s := s.setSp (s.cpu.regs.sp + 1)
  (Word.join hi lo, s)

/-- The byte in a place. -/
def load (s : Core μ) : Place → UInt8 × Core μ
  | .b => (s.cpu.regs.b, s)
  | .c => (s.cpu.regs.c, s)
  | .d => (s.cpu.regs.d, s)
  | .e => (s.cpu.regs.e, s)
  | .h => (s.cpu.regs.h, s)
  | .l => (s.cpu.regs.l, s)
  | .atHl => s.read s.cpu.regs.hl
  | .a => (s.cpu.regs.a, s)

/-- Put a byte into a place. -/
def store (s : Core μ) (p : Place) (v : UInt8) : Core μ :=
  match p with
  | .b => s.withRegs { s.cpu.regs with b := v }
  | .c => s.withRegs { s.cpu.regs with c := v }
  | .d => s.withRegs { s.cpu.regs with d := v }
  | .e => s.withRegs { s.cpu.regs with e := v }
  | .h => s.withRegs { s.cpu.regs with h := v }
  | .l => s.withRegs { s.cpu.regs with l := v }
  | .atHl => s.write s.cpu.regs.hl v
  | .a => s.setA v

/-- The word in a pair. -/
def pair (s : Core μ) : Pair → UInt16
  | .bc => s.cpu.regs.bc
  | .de => s.cpu.regs.de
  | .hl => s.cpu.regs.hl
  | .sp => s.cpu.regs.sp

/-- Put a word into a pair. -/
def setPair (s : Core μ) (r : Pair) (v : UInt16) : Core μ :=
  match r with
  | .bc => s.withRegs (s.cpu.regs.setBc v)
  | .de => s.withRegs (s.cpu.regs.setDe v)
  | .hl => s.withRegs (s.cpu.regs.setHl v)
  | .sp => s.setSp v

/-- The word in a pair of the stack instructions. -/
def stackPair (s : Core μ) : StackPair → UInt16
  | .bc => s.cpu.regs.bc
  | .de => s.cpu.regs.de
  | .hl => s.cpu.regs.hl
  | .af => s.cpu.regs.af

/-- Put a word into a pair of the stack instructions. -/
def setStackPair (s : Core μ) (r : StackPair) (v : UInt16) : Core μ :=
  match r with
  | .bc => s.withRegs (s.cpu.regs.setBc v)
  | .de => s.withRegs (s.cpu.regs.setDe v)
  | .hl => s.withRegs (s.cpu.regs.setHl v)
  | .af => s.withRegs (s.cpu.regs.setAf v)

/-- The address that a pointer stands for. -/
def address (s : Core μ) (p : Pointer) (operand : UInt16) : UInt16 :=
  match p with
  | .bc => s.cpu.regs.bc
  | .de => s.cpu.regs.de
  | .hlIncrement | .hlDecrement => s.cpu.regs.hl
  | .pageOperand => 0xFF00 + (Word.low operand).toUInt16
  | .pageC => 0xFF00 + s.cpu.regs.c.toUInt16
  | .operand => operand

/-- What using a pointer does to HL. -/
def advance (s : Core μ) : Pointer → Core μ
  | .hlIncrement => s.withRegs (s.cpu.regs.setHl (s.cpu.regs.hl + 1))
  | .hlDecrement => s.withRegs (s.cpu.regs.setHl (s.cpu.regs.hl - 1))
  | _ => s

/-- Whether the flags satisfy a condition. -/
def satisfies (s : Core μ) : Condition → Bool
  | .always => true
  | .notZero => !s.cpu.regs.f.zero
  | .zero => s.cpu.regs.f.zero
  | .notCarry => !s.cpu.regs.f.carry
  | .carry => s.cpu.regs.f.carry

/-! ### Instructions -/

/-- Jump. -/
def jumpTo (s : Core μ) (target : UInt16) : Core μ :=
  s.setPc target

/-- Push the program counter and jump. -/
def callTo (s : Core μ) (target : UInt16) : Core μ :=
  (s.push s.cpu.regs.pc).setPc target

/-- Pop the program counter. -/
def ret (s : Core μ) : Core μ :=
  let (pc, s) := s.pop
  s.setPc pc

/-- Do something if a condition holds, and tell whether it did. -/
def when (s : Core μ) (cond : Condition) (act : Core μ → Core μ) : Core μ × Bool :=
  if s.satisfies cond then (act s, true) else (s, false)

/-- Carry out an instruction whose operand has been fetched.  The second component tells whether its
condition was met; it matters only for conditional instructions. -/
def execute (s : Core μ) (i : Instruction) (operand : UInt16) : Core μ × Bool :=
  let n := Word.low operand
  match i with
  | .nop | .extended => (s, false)
  | .loadPair r => (s.setPair r operand, false)
  | .incPair r => (s.setPair r (s.pair r + 1), false)
  | .decPair r => (s.setPair r (s.pair r - 1), false)
  | .addHl r =>
    let (v, f) := Alu.addWords s.cpu.regs.hl (s.pair r) s.cpu.regs.f
    ((s.setFlags f).setPair .hl v, false)
  | .storeSp =>
    let s := s.write operand (Word.low s.cpu.regs.sp)
    (s.write (operand + 1) (Word.high s.cpu.regs.sp), false)
  | .addSp =>
    let (v, f) := Alu.addSigned s.cpu.regs.sp n
    ((s.setFlags f).setSp v, false)
  | .loadHlSp =>
    let (v, f) := Alu.addSigned s.cpu.regs.sp n
    ((s.setFlags f).setPair .hl v, false)
  | .loadSpHl => (s.setSp s.cpu.regs.hl, false)
  | .storeA p => ((s.write (s.address p operand) s.cpu.regs.a).advance p, false)
  | .loadA p =>
    let (v, s) := s.read (s.address p operand)
    ((s.setA v).advance p, false)
  | .inc r =>
    let (v, s) := s.load r
    let (v, f) := Alu.inc v s.cpu.regs.f
    ((s.setFlags f).store r v, false)
  | .dec r =>
    let (v, s) := s.load r
    let (v, f) := Alu.dec v s.cpu.regs.f
    ((s.setFlags f).store r v, false)
  | .loadOperand r => (s.store r n, false)
  | .rotateA op =>
    let (v, c) := Alu.shift op s.cpu.regs.a s.cpu.regs.f.carry
    (s.setResult (v, { carry := c }), false)
  | .daa => (s.setResult (Alu.decimalAdjust s.cpu.regs.a s.cpu.regs.f), false)
  | .cpl =>
    (s.setResult (~~~s.cpu.regs.a,
      { s.cpu.regs.f with subtract := true, halfCarry := true }), false)
  | .scf =>
    (s.setFlags { s.cpu.regs.f with subtract := false, halfCarry := false, carry := true }, false)
  | .ccf =>
    (s.setFlags { s.cpu.regs.f with
      subtract := false, halfCarry := false, carry := !s.cpu.regs.f.carry }, false)
  | .stop => ({ s with cpu := { s.cpu with stopped := true } }, false)
  | .halt => ({ s with cpu := { s.cpu with halted := true } }, false)
  | .load target source =>
    let (v, s) := s.load source
    (s.store target v, false)
  | .alu op source =>
    let (v, s) := s.load source
    (s.setResult (Alu.apply op s.cpu.regs.a v s.cpu.regs.f.carry), false)
  | .aluOperand op => (s.setResult (Alu.apply op s.cpu.regs.a n s.cpu.regs.f.carry), false)
  | .jumpRelative cond => s.when cond fun s => s.jumpTo (s.cpu.regs.pc + Word.ofSigned n)
  | .jump cond => s.when cond fun s => s.jumpTo operand
  | .jumpHl => (s.jumpTo s.cpu.regs.hl, false)
  | .call cond => s.when cond fun s => s.callTo operand
  | .ret cond => s.when cond ret
  | .reti =>
    let s := s.ret
    ({ s with cpu := { s.cpu with ime := true } }, false)
  | .restart target => (s.callTo target.toUInt16, false)
  | .pop r =>
    let (v, s) := s.pop
    (s.setStackPair r v, false)
  | .push r => (s.push (s.stackPair r), false)
  | .disableInterrupts => ({ s with cpu := s.cpu.requestIme false }, false)
  | .enableInterrupts => ({ s with cpu := s.cpu.requestIme true }, false)
  | .illegal => (s, false)

/-- Carry out an extended instruction. -/
def executeExtended (s : Core μ) (i : ExtendedInstruction) : Core μ :=
  let (v, s) := s.load i.place
  match i with
  | .shift op r =>
    let (result, c) := Alu.shift op v s.cpu.regs.f.carry
    (s.setFlags { zero := result == 0, carry := c }).store r result
  | .test bit _ =>
    s.setFlags { s.cpu.regs.f with
      zero := !Byte.bit v bit, subtract := false, halfCarry := true }
  | .reset bit r => s.store r (v &&& ~~~(1 <<< UInt8.ofNat bit))
  | .set bit r => s.store r (v ||| (1 <<< UInt8.ofNat bit))

end Core

end Handheld
