import Handheld.Proofs.Core.Opcodes

/-!
# Arithmetic with bytes

What the operations of the accumulator with a byte have to do is said with integers:
`AluOp.exact` is the result before it is cut to a byte, and a carry or a borrow is an exact result
that is no byte, or no nibble for the lower digits (`AluOp.Specified`).  `Alu.Counted` says the same
of counting a byte up or down.  The operations do this (`Alu.apply_specified`, `Alu.inc_counted`,
`Alu.dec_counted`).

The main statement is `Core.arithmetic_step`: a step whose opcode stands for one of these
instructions (`Opcode.alu`, `Opcode.aluOperand`, `Opcode.inc`, `Opcode.dec`) works on the byte in
the place that the opcode stands for, leaves what is specified, and changes nothing else.
-/

namespace Handheld

/-! ### Integers -/

namespace AluOp

/-- The carry that an operation takes in. -/
def carryIn (op : AluOp) (carry : Bool) : Bool :=
  match op with
  | .adc | .sbc => carry
  | _ => false

/-- The result of an operation as an integer, before it is cut to a byte. -/
def exact (op : AluOp) (a v : Nat) (carry : Bool) : Int :=
  match op with
  | .add | .adc => a + v + carry.toNat
  | .sub | .sbc | .cp => a - v - carry.toNat
  | .and => (a &&& v : Nat)
  | .xor => (a ^^^ v : Nat)
  | .or => (a ||| v : Nat)

/-- What an operation with a byte has to leave in the accumulator and in the flags. -/
structure Specified (op : AluOp) (a v : UInt8) (carry : Bool) (r : UInt8) (f : Flags) : Prop where
  /-- The result is cut to a byte; a comparison leaves the accumulator as it is. -/
  result : (r.toNat : Int) =
    if op = .cp then (a.toNat : Int) else op.exact a.toNat v.toNat (op.carryIn carry) % 256
  /-- A comparison, too, tells whether the result is zero. -/
  zero : f.zero = true ↔ op.exact a.toNat v.toNat (op.carryIn carry) % 256 = 0
  subtract : f.subtract = true ↔ op = .sub ∨ op = .sbc ∨ op = .cp
  /-- The lower digits alone do not give a digit; the conjunction always sets this flag. -/
  halfCarry : f.halfCarry = true ↔ op = .and ∨
    op.exact (a.toNat % 16) (v.toNat % 16) (op.carryIn carry) < 0 ∨
    15 < op.exact (a.toNat % 16) (v.toNat % 16) (op.carryIn carry)
  /-- The bytes do not give a byte. -/
  carry : f.carry = true ↔
    op.exact a.toNat v.toNat (op.carryIn carry) < 0 ∨
    255 < op.exact a.toNat v.toNat (op.carryIn carry)

end AluOp

namespace Alu

/-- The sum of two bytes and a carry, as a number. -/
lemma toNat_add (a v : UInt8) (carry : Bool) :
    ((add a v carry).1.toNat : Int) = (a.toNat + v.toNat + carry.toNat) % 256 := by
  cases carry <;> simp [add, UInt8.toNat_add]

/-- The difference of two bytes and a carry, as a number. -/
lemma toNat_sub (a v : UInt8) (carry : Bool) :
    ((sub a v carry).1.toNat : Int) = (a.toNat - v.toNat - carry.toNat) % 256 := by
  have ha := a.toNat_lt
  have hv := v.toNat_lt
  cases carry <;> simp [sub, UInt8.toNat_sub] <;> omega

/-- A byte is zero if it is as a number. -/
lemma beq_zero_iff {r : UInt8} {n : Int} (h : (r.toNat : Int) = n) : (r == 0) = true ↔ n = 0 := by
  rw [beq_iff_eq, ← UInt8.toNat_inj, ← h]
  exact Int.natCast_eq_zero.symm

/-- A carry counts for one. -/
lemma toNat_decide (p : Prop) [Decidable p] :
    (p ∧ (decide p).toNat = 1) ∨ (¬p ∧ (decide p).toNat = 0) := by
  by_cases h : p
  · exact .inl ⟨h, congrArg Bool.toNat (decide_eq_true h)⟩
  · exact .inr ⟨h, congrArg Bool.toNat (decide_eq_false h)⟩

variable {op : AluOp} (a v : UInt8) (carry : Bool)

/-- Additions are as specified. -/
lemma add_specified (hop : op = .add ∨ op = .adc) :
    op.Specified a v carry (add a v (op.carryIn carry)).1 (add a v (op.carryIn carry)).2 := by
  have hresult := toNat_add a v (op.carryIn carry)
  have hexact : ∀ x y c, op.exact x y c = x + y + c.toNat := by
    rcases hop with rfl | rfl
    · exact fun _ _ _ => rfl
    · exact fun _ _ _ => rfl
  have hne : op ≠ .cp ∧ op ≠ .sub ∧ op ≠ .sbc ∧ op ≠ .and := by
    rcases hop with rfl | rfl
    · decide
    · decide
  constructor
  · rw [if_neg hne.1, hexact, hresult]
  · rw [hexact]
    exact beq_zero_iff hresult
  · simp [add, hne]
  · simp only [add, hexact, hne, decide_eq_true_eq, false_or]
    omega
  · simp only [add, hexact, decide_eq_true_eq]
    omega

/-- Subtractions are as specified, and so is a comparison, which keeps only the flags. -/
lemma sub_specified (hop : op = .sub ∨ op = .sbc ∨ op = .cp) :
    op.Specified a v carry (if op = .cp then a else (sub a v (op.carryIn carry)).1)
      (sub a v (op.carryIn carry)).2 := by
  have hresult := toNat_sub a v (op.carryIn carry)
  have hexact : ∀ x y c, op.exact x y c = x - y - c.toNat := by
    rcases hop with rfl | rfl | rfl
    · exact fun _ _ _ => rfl
    · exact fun _ _ _ => rfl
    · exact fun _ _ _ => rfl
  have hne : op ≠ .and := by
    rcases hop with rfl | rfl | rfl
    · decide
    · decide
    · decide
  have ha := a.toNat_lt
  constructor
  · rw [hexact, ← hresult]
    split
    · rfl
    · rfl
  · rw [hexact]
    exact beq_zero_iff hresult
  · simp [sub, hop]
  · simp only [sub, hexact, hne, decide_eq_true_eq, false_or]
    omega
  · simp only [sub, hexact, decide_eq_true_eq]
    omega

/-- A logical operation on digits gives a digit. -/
lemma exact_logic (hop : op = .and ∨ op = .xor ∨ op = .or) {x y : Nat} (hx : x < 16) (hy : y < 16)
    (c : Bool) : 0 ≤ op.exact x y c ∧ op.exact x y c < 16 := by
  rcases hop with rfl | rfl | rfl
  · exact ⟨Int.natCast_nonneg _, Int.ofNat_lt.mpr (Nat.and_lt_two_pow (n := 4) x hy)⟩
  · exact ⟨Int.natCast_nonneg _, Int.ofNat_lt.mpr (Nat.xor_lt_two_pow (n := 4) hx hy)⟩
  · exact ⟨Int.natCast_nonneg _, Int.ofNat_lt.mpr (Nat.or_lt_two_pow (n := 4) hx hy)⟩

/-- Logical operations are as specified. -/
lemma logic_specified (hop : op = .and ∨ op = .xor ∨ op = .or) {r : UInt8}
    (hr : op.exact a.toNat v.toNat (op.carryIn carry) = r.toNat) :
    op.Specified a v carry (logic r (op == .and)).1 (logic r (op == .and)).2 := by
  have hnibble := exact_logic hop (Nat.mod_lt a.toNat (by decide)) (Nat.mod_lt v.toNat (by decide))
    (op.carryIn carry)
  have hne : op ≠ .cp ∧ op ≠ .sub ∧ op ≠ .sbc := by
    rcases hop with rfl | rfl | rfl
    · decide
    · decide
    · decide
  have hr256 := r.toNat_lt
  have hresult : (r.toNat : Int) = op.exact a.toNat v.toNat (op.carryIn carry) % 256 := by
    rw [hr]
    omega
  constructor
  · rw [if_neg hne.1]
    exact hresult
  · exact beq_zero_iff hresult
  · simp [logic, hne]
  · simp only [logic, beq_iff_eq]
    exact ⟨.inl, fun h => h.resolve_right (by omega)⟩
  · simp only [logic, hr, Bool.false_eq_true, false_iff]
    omega

/-- The operations of the accumulator with a byte are as specified. -/
theorem apply_specified (op : AluOp) (a v : UInt8) (carry : Bool) :
    op.Specified a v carry (apply op a v carry).1 (apply op a v carry).2 := by
  cases op with
  | add => exact add_specified a v carry (.inl rfl)
  | adc => exact add_specified a v carry (.inr rfl)
  | sub => exact sub_specified a v carry (.inl rfl)
  | sbc => exact sub_specified a v carry (.inr (.inl rfl))
  | cp => exact sub_specified a v carry (.inr (.inr rfl))
  | and =>
    exact logic_specified a v carry (.inl rfl)
      (congrArg Nat.cast (UInt8.toNat_and a v).symm)
  | xor =>
    exact logic_specified a v carry (.inr (.inl rfl))
      (congrArg Nat.cast (UInt8.toNat_xor a v).symm)
  | or =>
    exact logic_specified a v carry (.inr (.inr rfl))
      (congrArg Nat.cast (UInt8.toNat_or a v).symm)

/-! ### Counting -/

/-- What counting a byte up or down has to leave in its place and in the flags. -/
structure Counted (down : Bool) (v : UInt8) (f : Flags) (r : UInt8) (g : Flags) : Prop where
  result : (r.toNat : Int) = (if down then (v.toNat : Int) - 1 else v.toNat + 1) % 256
  zero : g.zero = true ↔ r = 0
  subtract : g.subtract = down
  halfCarry : g.halfCarry = true ↔ v.toNat % 16 = if down then 0 else 15
  carry : g.carry = f.carry

/-- Counting up is as specified. -/
theorem inc_counted (v : UInt8) (f : Flags) : Counted false v f (inc v f).1 (inc v f).2 where
  result := by simp [inc, UInt8.toNat_add]
  zero := beq_iff_eq
  subtract := rfl
  halfCarry := beq_iff_eq
  carry := rfl

/-- Counting down is as specified. -/
theorem dec_counted (v : UInt8) (f : Flags) : Counted true v f (dec v f).1 (dec v f).2 where
  result := by
    have hv := v.toNat_lt
    simp only [dec, UInt8.toNat_sub, UInt8.toNat_ofNat, if_true]
    omega
  zero := beq_iff_eq
  subtract := rfl
  halfCarry := beq_iff_eq
  carry := rfl

end Alu

/-! ### Steps -/

namespace Core

variable {s : Core FlatMemory}

/-- Between two cores an operation with a byte has changed the accumulator and the flags, the
program counter has passed an instruction, and nothing else has changed. -/
structure Combined (s t : Core FlatMemory) (op : AluOp) (v : UInt8) (length : UInt16) :
    Prop where
  specified : op.Specified s.cpu.regs.a v s.cpu.regs.f.carry t.cpu.regs.a t.cpu.regs.f
  frame : t = {
    cpu := { s.cpu.retireDelay with
      regs := { s.cpu.regs with
        a := t.cpu.regs.a, f := t.cpu.regs.f, pc := s.cpu.regs.pc + length } }
    memory := s.memory }

/-- Between two cores the byte in a place has been counted up or down, the program counter has
passed an instruction, and nothing else has changed but the flags. -/
structure CountedAt (s t : Core FlatMemory) (down : Bool) (r : Place) : Prop where
  counted : Alu.Counted down (s.byteIn r) s.cpu.regs.f (t.byteIn r) t.cpu.regs.f
  frame : t = s.altered r (t.byteIn r) t.cpu.regs.f 1

/-- An operation with a byte and the flags. -/
lemma combined_setResult (s : Core FlatMemory) (o : Operand) (op : AluOp) (v : UInt8) :
    s.Combined ((s.past o).setResult (Alu.apply op s.cpu.regs.a v s.cpu.regs.f.carry)).retireDelay
      op v (UInt16.ofNat (1 + o.length)) := by
  have hregs : ((s.past o).setResult (Alu.apply op s.cpu.regs.a v s.cpu.regs.f.carry)).retireDelay =
      s.after { s.cpu.regs with
        a := (Alu.apply op s.cpu.regs.a v s.cpu.regs.f.carry).1
        f := (Alu.apply op s.cpu.regs.a v s.cpu.regs.f.carry).2
        pc := s.cpu.regs.pc + UInt16.ofNat (1 + o.length) } s.memory :=
    s.retireDelay_eq_after _ _
  rw [hregs]
  exact ⟨Alu.apply_specified .., rfl⟩

/-- An operation with the byte in a place. -/
lemma step_alu {op : AluOp} {r : Place} (h : s.instruction? = some (.alu op r)) :
    s.Combined s.step.2 op (s.byteIn r) 1 := by
  have hstep : s.step.2 = ((s.past .none).setResult
      (Alu.apply op s.cpu.regs.a (s.byteIn r) s.cpu.regs.f.carry)).retireDelay := by
    rw [step_of_instruction h Instruction.noConfusion]
    simp only [Instruction.operand, execute, load_past]
    rfl
  rw [hstep]
  exact combined_setResult s .none op _

/-- An operation with the operand. -/
lemma step_aluOperand {op : AluOp} (h : s.instruction? = some (.aluOperand op)) :
    s.Combined s.step.2 op (s.memory.cells (s.cpu.regs.pc + 1)) 2 := by
  have hstep : s.step.2 = ((s.past .byte).setResult
      (Alu.apply op s.cpu.regs.a (s.memory.cells (s.cpu.regs.pc + 1))
        s.cpu.regs.f.carry)).retireDelay := by
    rw [step_of_instruction h Instruction.noConfusion]
    have hn : Word.low (s.immediate .byte) = s.memory.cells (s.cpu.regs.pc + 1) :=
      Word.low_toUInt16 _
    simp only [Instruction.operand, execute, hn]
    rfl
  rw [hstep]
  exact combined_setResult s .byte op _

/-- An instruction that counts the byte in a place. -/
lemma step_count {i : Instruction} {r : Place} {down : Bool}
    {count : UInt8 → Flags → UInt8 × Flags} (h : s.instruction? = some i)
    (hi : i ≠ .extended ∧ i.operand = .none)
    (hcount : ∀ v f, Alu.Counted down v f (count v f).1 (count v f).2)
    (hexecute : ∀ (t : Core FlatMemory) (operand : UInt16),
      (t.execute i operand).1 =
        ((t.load r).2.setFlags (count (t.load r).1 (t.load r).2.cpu.regs.f).2).store r
          (count (t.load r).1 (t.load r).2.cpu.regs.f).1) :
    s.CountedAt s.step.2 down r := by
  let x := count (s.byteIn r) s.cpu.regs.f
  have hstep : s.step.2 = s.altered r x.1 x.2 1 := by
    rw [step_of_instruction h hi.1]
    simp only [hi.2, hexecute, load_past]
    exact s.retireDelay_store_past .none x.2 r x.1
  have hbyte : s.step.2.byteIn r = x.1 := hstep ▸ s.byteIn_altered r x.1 x.2 1
  have hflags : s.step.2.cpu.regs.f = x.2 := by
    rw [hstep]
    rfl
  constructor
  · rw [hbyte, hflags]
    exact hcount _ _
  · rw [hbyte, hflags, hstep]

/-- A step of a running processor whose opcode stands for an operation of the accumulator with a
byte, or for counting a byte.  The operand is the register, the cell at HL or the operand byte that
the opcode stands for; accumulator and flags, or the place and the flags, are as specified; no other
register and no other cell changes, and the program counter passes the instruction.  Every opcode in
the third quarter stands for such an operation. -/
theorem arithmetic_step (hs : s.cpu.activity = .running) :
    let opcode := s.memory.cells s.cpu.regs.pc
    (∀ op r, opcode = Opcode.alu op r → s.Combined s.step.2 op (s.byteIn r) 1) ∧
    (∀ op, opcode = Opcode.aluOperand op →
      s.Combined s.step.2 op (s.memory.cells (s.cpu.regs.pc + 1)) 2) ∧
    (∀ r, opcode = Opcode.inc r → s.CountedAt s.step.2 false r) ∧
    (∀ r, opcode = Opcode.dec r → s.CountedAt s.step.2 true r) ∧
    (0x80 ≤ opcode ∧ opcode ≤ 0xBF → ∃ op r, opcode = Opcode.alu op r) := by
  intro opcode
  have hi : ∀ {i}, Instruction.decode opcode = i → s.instruction? = some i :=
    fun h => (instruction_of_running hs).trans (congrArg some h)
  refine ⟨fun op r h => ?_, fun op h => ?_, fun r h => ?_, fun r h => ?_, Opcode.exists_alu⟩
  · exact step_alu (hi (h ▸ Instruction.decode_alu op r))
  · exact step_aluOperand (hi (h ▸ Instruction.decode_aluOperand op))
  · exact step_count (hi (h ▸ Instruction.decode_inc r)) ⟨Instruction.noConfusion, rfl⟩
      Alu.inc_counted fun _ _ => rfl
  · exact step_count (hi (h ▸ Instruction.decode_dec r)) ⟨Instruction.noConfusion, rfl⟩
      Alu.dec_counted fun _ _ => rfl

/-- A processor whose memory holds the same byte everywhere, with HL at the instruction. -/
def filledWith (opcode : UInt8) : Core FlatMemory :=
  ⟨{ regs := { a := 0x80, b := 0x9F, f := { carry := true }, h := 0xC0, pc := 0xC000 } },
    { cells := fun _ => opcode }⟩

/-- What `arithmetic_step` says about an addition of B, about B counted up, and about instructions
that are their own operands: an addition with carry of the cell at HL, an addition of the operand
byte, and the cell at HL counted up and down. -/
theorem arithmetic_step_filled :
    (∀ opcode, (filledWith opcode).cpu.activity = .running) ∧
    (filledWith 0x80).Combined (filledWith 0x80).step.2 .add 0x9F 1 ∧
    (filledWith 0x8E).Combined (filledWith 0x8E).step.2 .adc 0x8E 1 ∧
    (filledWith 0xC6).Combined (filledWith 0xC6).step.2 .add 0xC6 2 ∧
    (filledWith 0x04).CountedAt (filledWith 0x04).step.2 false .b ∧
    (filledWith 0x04).step.2.cpu.regs.b.toNat = 0xA0 ∧
    (filledWith 0x34).CountedAt (filledWith 0x34).step.2 false .atHl ∧
    (filledWith 0x35).CountedAt (filledWith 0x35).step.2 true .atHl := by
  have hrunning : ∀ opcode, (filledWith opcode).cpu.activity = .running := fun _ => rfl
  obtain ⟨hregister, -⟩ := arithmetic_step (hrunning 0x80)
  obtain ⟨hcell, -⟩ := arithmetic_step (hrunning 0x8E)
  obtain ⟨-, hoperand, -⟩ := arithmetic_step (hrunning 0xC6)
  obtain ⟨-, -, hupRegister, -⟩ := arithmetic_step (hrunning 0x04)
  obtain ⟨-, -, hup, -⟩ := arithmetic_step (hrunning 0x34)
  obtain ⟨-, -, -, hdown, -⟩ := arithmetic_step (hrunning 0x35)
  exact ⟨hrunning, hregister .add .b rfl, hcell .adc .atHl rfl, hoperand .add rfl,
    hupRegister .b rfl, Int.ofNat.inj (hupRegister .b rfl).counted.result, hup .atHl rfl,
    hdown .atHl rfl⟩

end Core

end Handheld
