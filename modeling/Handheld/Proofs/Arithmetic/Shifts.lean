import Handheld.Proofs.Core.Opcodes

/-!
# Rotations, shifts and single bits

What a rotation or shift has to do is said of the bits: all of them move up, or all of them move
down, and one comes in at the free end (`ShiftOp.incoming`), or the two nibbles change places.
`ShiftOp.moved` is the bit that is then in a position, and `ShiftOp.outgoing` is the bit that has
left the byte.  The operations do this (`Alu.bit_shift`, `Alu.shift_snd`), and so it can be seen
which of them take each other back (`Alu.shift_inverse_fst`).

The main statement is `Core.extended_step`, about a step with any of the extended instructions,
whose opcodes are `Opcode.shift`, `Opcode.test`, `Opcode.reset` and `Opcode.set`.
-/

namespace Handheld

/-! ### Bits -/

namespace ShiftOp

/-- The bit that comes in where the others have moved away from. -/
def incoming (op : ShiftOp) (v : UInt8) (carry : Bool) : Bool :=
  match op with
  | rlc | sra => Byte.bit v 7
  | rrc => Byte.bit v 0
  | rl | rr => carry
  | sla | srl | swap => false

/-- The bit that is in a position afterwards. -/
def moved (op : ShiftOp) (v : UInt8) (carry : Bool) (i : Nat) : Bool :=
  match op with
  | rlc | rl | sla => if i = 0 then op.incoming v carry else Byte.bit v (i - 1)
  | rrc | rr | sra | srl => if i = 7 then op.incoming v carry else Byte.bit v (i + 1)
  | swap => Byte.bit v ((i + 4) % 8)

/-- The bit that leaves the byte; none does when the nibbles change places. -/
def outgoing (op : ShiftOp) (v : UInt8) : Bool :=
  match op with
  | rlc | rl | sla => Byte.bit v 7
  | rrc | rr | sra | srl => Byte.bit v 0
  | swap => false

/-- The operation that takes another one back, if there is one. -/
def inverse? : ShiftOp → Option ShiftOp
  | rlc => some rrc
  | rrc => some rlc
  | rl => some rr
  | rr => some rl
  | swap => some swap
  | sla | sra | srl => none

end ShiftOp

namespace Alu

variable (v : UInt8) (carry : Bool)

/-- All bits move up, and another byte holds what comes in. -/
lemma bit_up {w : UInt8} {incoming : Bool}
    (hw : ∀ i < 8, Byte.bit w i = (incoming && decide (i = 0))) {i : Nat} (hi : i < 8) :
    Byte.bit ((v <<< 1) ||| w) i = if i = 0 then incoming else Byte.bit v (i - 1) := by
  rw [Byte.bit_or, Byte.bit_shiftLeft v (by decide) hi, hw i hi]
  by_cases hzero : i = 0
  · simp [hzero]
  · simp [hzero, Nat.one_le_iff_ne_zero]

/-- All bits move down, and another byte holds what comes in. -/
lemma bit_down {w : UInt8} {incoming : Bool}
    (hw : ∀ i < 8, Byte.bit w i = (incoming && decide (i = 7))) {i : Nat} (hi : i < 8) :
    Byte.bit ((v >>> 1) ||| w) i = if i = 7 then incoming else Byte.bit v (i + 1) := by
  rw [Byte.bit_or, Byte.bit_shiftRight v (by decide), hw i hi]
  by_cases hseven : i = 7
  · simp [hseven, Byte.bit_of_le]
  · simp [hseven]

/-- The byte without bits. -/
lemma bit_zero (i : Nat) : Byte.bit 0 i = false := Nat.zero_testBit i

/-- The bits of a rotated or shifted byte. -/
theorem bit_shift (op : ShiftOp) {i : Nat} (hi : i < 8) :
    Byte.bit (shift op v carry).1 i = op.moved v carry i := by
  cases op with
  | rlc =>
    refine bit_up v (fun i hi => ?_) hi
    rw [Byte.bit_shiftRight v (by decide)]
    by_cases hzero : i = 0
    · simp [hzero, ShiftOp.incoming]
    · simpa [hzero] using Byte.bit_of_le v (show 8 ≤ i + 7 by omega)
  | rrc =>
    refine bit_down v (fun i hi => ?_) hi
    rw [Byte.bit_shiftLeft v (by decide) hi]
    by_cases hseven : i = 7
    · simp [hseven, ShiftOp.incoming]
    · simp [hseven, show ¬ 7 ≤ i by omega]
  | rl => exact bit_up v (fun i hi => Byte.bit_ofBit (by decide) carry hi) hi
  | rr => exact bit_down v (fun i hi => Byte.bit_ofBit (by decide) carry hi) hi
  | sla =>
    have hnone : ∀ i < 8, Byte.bit 0 i = (false && decide (i = 0)) := fun i _ => bit_zero i
    have h := bit_up v hnone hi
    rwa [UInt8.or_zero] at h
  | sra =>
    refine bit_down v (fun i hi => ?_) hi
    have htop : Byte.bit 0x80 i = decide (i = 7) :=
      (Byte.bit_ofBit (k := 7) (by decide) true hi).trans (Bool.true_and _)
    rw [Byte.bit_and, htop]
    by_cases hseven : i = 7
    · simp [hseven, ShiftOp.incoming]
    · simp [hseven]
  | swap =>
    rw [shift, Byte.swapNibbles, Byte.bit_or, Byte.bit_shiftLeft v (by decide) hi,
      Byte.bit_shiftRight v (by decide), ShiftOp.moved]
    by_cases hhigh : 4 ≤ i
    · have hbeyond : Byte.bit v (i + 4) = false := Byte.bit_of_le v (by omega)
      have hmod : (i + 4) % 8 = i - 4 := by omega
      simp [hhigh, hbeyond, hmod]
    · have hmod : (i + 4) % 8 = i + 4 := by omega
      simp [hhigh, hmod]
  | srl =>
    have hnone : ∀ i < 8, Byte.bit 0 i = (false && decide (i = 7)) := fun i _ => bit_zero i
    have h := bit_down v hnone hi
    rwa [UInt8.or_zero] at h

/-- The bit that a rotation or shift pushes out. -/
theorem shift_snd (op : ShiftOp) : (shift op v carry).2 = op.outgoing v := by
  cases op <;> rfl

/-- An operation that is taken back leaves the byte as it was. -/
theorem shift_inverse_fst {op op' : ShiftOp} (h : op.inverse? = some op') :
    (shift op' (shift op v carry).1 (shift op v carry).2).1 = v := by
  have hbit : ∀ i < 8, Byte.bit (shift op v carry).1 i = op.moved v carry i :=
    fun i hi => bit_shift v carry op hi
  refine Byte.ext_bits fun i hi => ?_
  rw [bit_shift _ _ _ hi, shift_snd]
  cases op with
  | rlc | rl =>
    -- What has moved up moves down again, and what has left at the top comes in there.
    obtain rfl := Option.some.inj h
    by_cases hseven : i = 7
    · simp [ShiftOp.moved, ShiftOp.incoming, ShiftOp.outgoing, hbit, hseven]
    · have hnext : i + 1 < 8 := by omega
      simp [ShiftOp.moved, hbit _ hnext, hseven]
  | rrc | rr =>
    obtain rfl := Option.some.inj h
    by_cases hzero : i = 0
    · simp [ShiftOp.moved, ShiftOp.incoming, ShiftOp.outgoing, hbit, hzero]
    · have hback : i - 1 < 8 := by omega
      have hnext : i - 1 + 1 = i := by omega
      have hseven : i - 1 ≠ 7 := by omega
      simp [ShiftOp.moved, hbit _ hback, hzero, hnext, hseven]
  | swap =>
    obtain rfl := Option.some.inj h
    have hmod : ((i + 4) % 8 + 4) % 8 = i := by omega
    simp [ShiftOp.moved, hbit _ (Nat.mod_lt (i + 4) (by decide)), hmod]
  | sla | sra | srl => cases h

/-- A rotation through the carry that is taken back leaves the carry as it was, too. -/
lemma shift_inverse_snd {op op' : ShiftOp} (h : op.inverse? = some op')
    (hop : op' = .rl ∨ op' = .rr) :
    (shift op' (shift op v carry).1 (shift op v carry).2).2 = carry := by
  rw [shift_snd]
  cases op with
  | rl =>
    obtain rfl := Option.some.inj h
    exact bit_shift v carry .rl (by decide)
  | rr =>
    obtain rfl := Option.some.inj h
    exact bit_shift v carry .rr (by decide)
  | rlc | rrc | swap =>
    obtain rfl := Option.some.inj h
    simp at hop
  | sla | sra | srl => cases h

end Alu

namespace Byte

variable {b i : Nat}

/-- A mask with one bit. -/
lemma bit_mask (hb : b < 8) (hi : i < 8) : bit (1 <<< UInt8.ofNat b) i = decide (i = b) := by
  have hnat : (UInt8.ofNat b).toNat = b :=
    UInt8.toNat_ofNat_of_lt (Nat.lt_trans hb (by decide : 8 < UInt8.size))
  have hbit := bit_ofBit (hnat.symm ▸ hb) true hi
  rwa [hnat, Bool.true_and] at hbit

/-- To clear a bit changes no other. -/
lemma bit_reset (v : UInt8) (hb : b < 8) (hi : i < 8) :
    bit (v &&& ~~~(1 <<< UInt8.ofNat b)) i = (bit v i && decide (i ≠ b)) := by
  rw [bit_and, bit_not _ hi, bit_mask hb hi, decide_not]

/-- To set a bit changes no other. -/
lemma bit_set (v : UInt8) (hb : b < 8) (hi : i < 8) :
    bit (v ||| (1 <<< UInt8.ofNat b)) i = (bit v i || decide (i = b)) := by
  rw [bit_or, bit_mask hb hi]

end Byte

/-! ### Costs -/

namespace ExtendedInstruction

/-- What is read, changed and put back costs two accesses to a cell. -/
lemma cycles_eq {i : ExtendedInstruction} (h : ∀ b r, i ≠ .test b r) :
    i.cycles = if i.place = .atHl then 16 else 8 := by
  cases i with
  | test b r => exact absurd rfl (h b r)
  | shift op r => cases r <;> rfl
  | reset b r => cases r <;> rfl
  | set b r => cases r <;> rfl

/-- What is only read costs one. -/
lemma cycles_test (b : Nat) (r : Place) : (test b r).cycles = if r = .atHl then 12 else 8 := by
  cases r <;> rfl

end ExtendedInstruction

/-! ### Steps -/

namespace Core

variable {s : Core FlatMemory} {i : ExtendedInstruction} {r : Place} {x : UInt8} {f : Flags}

/-- An extended instruction works on its place, wherever the program counter is. -/
lemma executeExtended_past (s : Core FlatMemory) (i : ExtendedInstruction) :
    (s.past .byte).executeExtended i =
      match i with
      | .shift op r =>
        let x := Alu.shift op (s.byteIn r) s.cpu.regs.f.carry
        ((s.past .byte).setFlags { zero := x.1 == 0, carry := x.2 }).store r x.1
      | .test b r =>
        (s.past .byte).setFlags { s.cpu.regs.f with
          zero := !Byte.bit (s.byteIn r) b, subtract := false, halfCarry := true }
      | .reset b r => (s.past .byte).store r (s.byteIn r &&& ~~~(1 <<< UInt8.ofNat b))
      | .set b r => (s.past .byte).store r (s.byteIn r ||| (1 <<< UInt8.ofNat b)) := by
  simp only [executeExtended, load_past]
  cases i with
  | shift op r | test b r | reset b r | set b r => rfl

/-- A step with an instruction that puts a byte into a place and leaves certain flags. -/
lemma step_of_store (hs : s.cpu.activity = .running)
    (hopcode : s.memory.cells s.cpu.regs.pc = extensionByte)
    (hi : ExtendedInstruction.decode (s.memory.cells (s.cpu.regs.pc + 1)) = i)
    (hexecute : (s.past .byte).executeExtended i = ((s.past .byte).setFlags f).store r x)
    (htest : ∀ b q, i ≠ .test b q) :
    s.step = (if i.place = .atHl then 16 else 8, s.altered r x f 2) := by
  rw [step_of_extended hs hopcode]
  simp only [hi, hexecute, retireDelay_store_past, ExtendedInstruction.cycles_eq htest]
  rfl

/-- A step with a rotation or shift. -/
lemma step_shift {op : ShiftOp} (hs : s.cpu.activity = .running)
    (hopcode : s.memory.cells s.cpu.regs.pc = extensionByte)
    (hi : s.memory.cells (s.cpu.regs.pc + 1) = Opcode.shift op r) :
    let x := Alu.shift op (s.byteIn r) s.cpu.regs.f.carry
    s.step =
      (if r = .atHl then 16 else 8, s.altered r x.1 { zero := x.1 == 0, carry := x.2 } 2) := by
  have hdecode := congrArg ExtendedInstruction.decode hi
  rw [ExtendedInstruction.decode_shift] at hdecode
  exact step_of_store hs hopcode hdecode (s.executeExtended_past _)
    fun _ _ => ExtendedInstruction.noConfusion

/-- A byte that is put back undoes what was put into its place. -/
lemma altered_altered (s : Core FlatMemory) (r : Place) (x : UInt8) (f g : Flags) :
    (s.altered r x f 2).altered r (s.byteIn r) g 2 =
      (s.altered r x f 2).after { s.cpu.regs with f := g, pc := s.cpu.regs.pc + 4 } s.memory := by
  have hpc : s.cpu.regs.pc + 2 + 2 = s.cpu.regs.pc + 4 := UInt16.add_assoc _ 2 2
  rw [← hpc]
  cases r with
  | atHl => exact congrArg (after _ _) (s.memory.set_set_cells _ _)
  | _ => rfl

/-- A rotation or shift that the next instruction takes back leaves only flags behind, and a
rotation through the carry leaves the carry as it was. -/
lemma step_inverse {op op' : ShiftOp} (hs : s.cpu.activity = .running)
    (hopcode : s.memory.cells s.cpu.regs.pc = extensionByte)
    (hi : s.memory.cells (s.cpu.regs.pc + 1) = Opcode.shift op r)
    (hop : op.inverse? = some op') {t : Core FlatMemory} (ht : t = s.step.2)
    (hopcode' : t.memory.cells t.cpu.regs.pc = extensionByte)
    (hi' : t.memory.cells (t.cpu.regs.pc + 1) = Opcode.shift op' r) :
    ∃ g : Flags, (op' = .rl ∨ op' = .rr → g.carry = s.cpu.regs.f.carry) ∧
      t.step.2 = t.after { s.cpu.regs with f := g, pc := s.cpu.regs.pc + 4 } s.memory := by
  let x := Alu.shift op (s.byteIn r) s.cpu.regs.f.carry
  have haltered : t = s.altered r x.1 { zero := x.1 == 0, carry := x.2 } 2 :=
    ht.trans (congrArg Prod.snd (step_shift hs hopcode hi))
  have hrunning : t.cpu.activity = .running := by
    rw [haltered, altered, activity_after]
    exact hs
  have hbyte : t.byteIn r = x.1 := by
    rw [haltered]
    exact byteIn_altered ..
  have hcarry : t.cpu.regs.f.carry = x.2 := by
    rw [haltered]
    rfl
  have hback : (Alu.shift op' x.1 x.2).1 = s.byteIn r := Alu.shift_inverse_fst _ _ hop
  have hstep := congrArg Prod.snd (step_shift hrunning hopcode' hi')
  rw [hbyte, hcarry, hback] at hstep
  refine ⟨{ zero := s.byteIn r == 0, carry := (Alu.shift op' x.1 x.2).2 },
    fun h => Alu.shift_inverse_snd _ _ hop h, hstep.trans ?_⟩
  rw [haltered]
  exact altered_altered ..

/-- A step of a running processor with an extended instruction, whose second byte stands for an
operation and a place.  A rotation or shift leaves there the byte with the moved bits; a test leaves
flags only; to clear or to set a bit changes this bit only.  Nothing else changes, and the program
counter passes two bytes.  The next instruction takes a rotation back if it is the one in the other
direction, and an exchange of the nibbles if it is another one; so it is for every byte, and through
the carry for both.  Every second byte stands for one of these instructions. -/
theorem extended_step (hs : s.cpu.activity = .running)
    (hopcode : s.memory.cells s.cpu.regs.pc = 0xCB) :
    let opcode := s.memory.cells (s.cpu.regs.pc + 1)
    let f := s.cpu.regs.f
    (∀ op r, opcode = Opcode.shift op r →
      let v := s.byteIn r
      (∃ x : UInt8, (∀ i < 8, Byte.bit x i = op.moved v f.carry i) ∧
        s.step = (if r = .atHl then 16 else 8, s.altered r x {
          zero := x == 0, subtract := false, halfCarry := false, carry := op.outgoing v } 2)) ∧
      ∀ op', op.inverse? = some op' →
        let t := s.step.2
        t.memory.cells t.cpu.regs.pc = 0xCB →
        t.memory.cells (t.cpu.regs.pc + 1) = Opcode.shift op' r →
        ∃ g : Flags, (op' = .rl ∨ op' = .rr → g.carry = f.carry) ∧
          t.step.2 = t.after { s.cpu.regs with f := g, pc := s.cpu.regs.pc + 4 } s.memory) ∧
    (∀ b r, opcode = Opcode.test b r → s.step = (if r = .atHl then 12 else 8, s.after
      { s.cpu.regs with
        f := {
          zero := !Byte.bit (s.byteIn r) b, subtract := false, halfCarry := true,
          carry := f.carry }
        pc := s.cpu.regs.pc + 2 } s.memory)) ∧
    (∀ b r, opcode = Opcode.reset b r → ∃ x : UInt8,
      (∀ i < 8, Byte.bit x i = (Byte.bit (s.byteIn r) i && decide (i ≠ b))) ∧
      s.step = (if r = .atHl then 16 else 8, s.altered r x f 2)) ∧
    (∀ b r, opcode = Opcode.set b r → ∃ x : UInt8,
      (∀ i < 8, Byte.bit x i = (Byte.bit (s.byteIn r) i || decide (i = b))) ∧
      s.step = (if r = .atHl then 16 else 8, s.altered r x f 2)) ∧
    ((∃ op r, opcode = Opcode.shift op r) ∨
      ∃ b r, opcode = Opcode.test b r ∨ opcode = Opcode.reset b r ∨ opcode = Opcode.set b r) ∧
    ∀ op op', ShiftOp.inverse? op = some op' → ∀ w carry,
      let x := Alu.shift op w carry
      (Alu.shift op' x.1 x.2).1 = w ∧
        (op' = .rl ∨ op' = .rr → (Alu.shift op' x.1 x.2).2 = carry) := by
  intro opcode f
  refine ⟨fun op r h => ⟨?_, ?_⟩, fun b r h => ?_, fun b r h => ?_, fun b r h => ?_,
    Opcode.exists_extended opcode, fun op op' hop w carry =>
    ⟨Alu.shift_inverse_fst w carry hop, fun h => Alu.shift_inverse_snd w carry hop h⟩⟩
  · refine ⟨_, fun i hi => Alu.bit_shift (s.byteIn r) f.carry op hi, ?_⟩
    rw [← Alu.shift_snd (s.byteIn r) f.carry]
    exact step_shift hs hopcode h
  · intro op' hop t hopcode' h'
    exact step_inverse hs hopcode h hop rfl hopcode' h'
  · have hi : ExtendedInstruction.decode (s.memory.cells (s.cpu.regs.pc + 1)) = .test b r :=
      (congrArg _ h).trans (ExtendedInstruction.decode_test b r)
    rw [step_of_extended hs hopcode]
    simp only [hi, ExtendedInstruction.cycles_test, executeExtended_past]
    exact congrArg (Prod.mk _) (s.retireDelay_eq_after _ _)
  · have hi : ExtendedInstruction.decode opcode = .reset b r :=
      (congrArg _ h).trans (ExtendedInstruction.decode_reset b r)
    refine ⟨_, fun i hi => Byte.bit_reset (s.byteIn r) b.isLt hi, ?_⟩
    exact step_of_store hs hopcode hi (s.executeExtended_past _)
      fun _ _ => ExtendedInstruction.noConfusion
  · have hi : ExtendedInstruction.decode opcode = .set b r :=
      (congrArg _ h).trans (ExtendedInstruction.decode_set b r)
    refine ⟨_, fun i hi => Byte.bit_set (s.byteIn r) b.isLt hi, ?_⟩
    exact step_of_store hs hopcode hi (s.executeExtended_past _)
      fun _ _ => ExtendedInstruction.noConfusion

/-- A processor with the carry flag set and HL at a byte of ones at both ends, in front of two
extended instructions. -/
def extendedWith (first second : UInt8) : Core FlatMemory :=
  ⟨{ regs := { a := 0x80, b := 0x85, f := { carry := true }, h := 0xD0, pc := 0xC000 } },
    { cells := fun a =>
        if a = 0xC000 ∨ a = 0xC002 then 0xCB
        else if a = 0xC001 then first
        else if a = 0xC003 then second
        else 0x81 }⟩

/-- What `extended_step` says about registers, B rotated up and the uppermost bit of A tested, and
about the byte at HL: rotated up through the carry and down again, with its uppermost bit tested,
with its lowest bit cleared, and with its second bit set. -/
theorem extended_step_extendedWith :
    (∀ first second, (extendedWith first second).cpu.activity = .running ∧
      (extendedWith first second).memory.cells 0xC000 = 0xCB) ∧
    (extendedWith 0x00 0).step = (8, (extendedWith 0x00 0).altered .b 0x0B { carry := true } 2) ∧
    (extendedWith 0x7F 0).step = (8, (extendedWith 0x7F 0).after
      { (extendedWith 0x7F 0).cpu.regs with
        f := { halfCarry := true, carry := true }, pc := 0xC002 }
      (extendedWith 0x7F 0).memory) ∧
    (extendedWith 0x16 0x1E).step =
      (16, (extendedWith 0x16 0x1E).altered .atHl 0x03 { carry := true } 2) ∧
    (∃ g : Flags, g.carry = true ∧ (extendedWith 0x16 0x1E).step.2.step.2 =
      (extendedWith 0x16 0x1E).step.2.after
        { (extendedWith 0x16 0x1E).cpu.regs with f := g, pc := 0xC004 }
        (extendedWith 0x16 0x1E).memory) ∧
    (extendedWith 0x7E 0).step = (12, (extendedWith 0x7E 0).after
      { (extendedWith 0x7E 0).cpu.regs with
        f := { halfCarry := true, carry := true }, pc := 0xC002 }
      (extendedWith 0x7E 0).memory) ∧
    (extendedWith 0x86 0).step =
      (16, (extendedWith 0x86 0).altered .atHl 0x80 { carry := true } 2) ∧
    (extendedWith 0xCE 0).step =
      (16, (extendedWith 0xCE 0).altered .atHl 0x83 { carry := true } 2) := by
  have hrunning : ∀ first second, (extendedWith first second).cpu.activity = .running ∧
      (extendedWith first second).memory.cells 0xC000 = 0xCB := fun _ _ => ⟨rfl, rfl⟩
  obtain ⟨hregister, -⟩ := extended_step (hrunning 0x00 0).1 (hrunning 0x00 0).2
  obtain ⟨⟨w, hw, hup⟩, -⟩ := hregister .rlc .b rfl
  obtain ⟨-, htestRegister, -⟩ := extended_step (hrunning 0x7F 0).1 (hrunning 0x7F 0).2
  obtain ⟨hshift, -⟩ := extended_step (hrunning 0x16 0x1E).1 (hrunning 0x16 0x1E).2
  obtain ⟨⟨x, hx, hrotated⟩, hback⟩ := hshift .rl .atHl rfl
  obtain ⟨-, htest, -⟩ := extended_step (hrunning 0x7E 0).1 (hrunning 0x7E 0).2
  obtain ⟨-, -, hreset, -⟩ := extended_step (hrunning 0x86 0).1 (hrunning 0x86 0).2
  obtain ⟨y, hy, hcleared⟩ := hreset 0 .atHl rfl
  obtain ⟨-, -, -, hset, -⟩ := extended_step (hrunning 0xCE 0).1 (hrunning 0xCE 0).2
  obtain ⟨z, hz, hadded⟩ := hset 1 .atHl rfl
  obtain rfl : w = 0x0B := Byte.ext_bits fun i hi => (hw i hi).trans (by revert i; decide)
  obtain rfl : x = 0x03 := Byte.ext_bits fun i hi => (hx i hi).trans (by revert i; decide)
  obtain rfl : y = 0x80 := Byte.ext_bits fun i hi => (hy i hi).trans (by revert i; decide)
  obtain rfl : z = 0x83 := Byte.ext_bits fun i hi => (hz i hi).trans (by revert i; decide)
  obtain ⟨g, hg, hrestored⟩ := hback .rr rfl rfl rfl
  exact ⟨hrunning, hup, htestRegister 7 .a rfl, hrotated, ⟨g, hg (.inr rfl), hrestored⟩,
    htest 7 .atHl rfl, hcleared, hadded⟩

end Core

end Handheld
