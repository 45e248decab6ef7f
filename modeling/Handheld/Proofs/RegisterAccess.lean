import Handheld.Proofs.Debugging
import Handheld.Proofs.Locality
import Handheld.Proofs.Saved.Console

/-!
# Registers by name

A debugger sees the processor and the interrupt controller as nineteen registers.  Some of them are
views of the same bytes: a pair is its two halves (`RegisterId.halves?`), and the registers of the
interrupt controller are at addresses of the bus as well.  `Machine.Coherent` says that these views
agree.

`RegisterId.shown` is what a register shows after a value was stored into it, and `Machine.EqualBut`
says that two machines are equal, except perhaps for what one register stores.  The main statement
is `Console.setRegister_view`: a value that is too large for a register is refused, and any other
value is shown by the register from then on, with nothing else changed.
-/

namespace Handheld

namespace RegisterId

/-- The upper and the lower half of a pair. -/
def halves? : RegisterId → Option (RegisterId × RegisterId)
  | af => some (a, f)
  | bc => some (b, c)
  | de => some (d, e)
  | hl => some (h, l)
  | _ => none

/-- The registers that a register is made of. -/
def parts (r : RegisterId) : List RegisterId :=
  match r.halves? with
  | some (hi, lo) => [hi, lo]
  | none => [r]

/-- Two registers have no byte in common. -/
def Apart (r s : RegisterId) : Prop := ∀ p ∈ r.parts, p ∉ s.parts

instance (r s : RegisterId) : Decidable (Apart r s) :=
  inferInstanceAs (Decidable (∀ p ∈ r.parts, p ∉ s.parts))

/-- What a register shows after a value was stored into it: the flags have no lower nibble, and the
upper three bits of the request register are ones. -/
def shown (r : RegisterId) (v : UInt32) : UInt32 :=
  match r with
  | f | af => v - v % 16
  | interruptRequest => v ||| 0xE0
  | _ => v

/-- A register of the interrupt controller. -/
def OfInterrupts (r : RegisterId) : Prop := r = interruptEnable ∨ r = interruptRequest

/-! ### Values that fit -/

section

variable {v : UInt32}

/-- A value that fits into a byte. -/
lemma byte_of_fits (h : v ≤ 0xFF) : v.toUInt8.toUInt32 = v := by
  have hle : v.toNat ≤ 0xFF := UInt32.le_iff_toNat_le.mp h
  apply UInt32.toNat_inj.mp
  rw [UInt8.toNat_toUInt32, UInt32.toNat_toUInt8]
  omega

/-- A value that fits into a word. -/
lemma word_of_fits (h : v ≤ 0xFFFF) : v.toUInt16.toUInt32 = v := by
  have hle : v.toNat ≤ 0xFFFF := UInt32.le_iff_toNat_le.mp h
  apply UInt32.toNat_inj.mp
  rw [UInt16.toNat_toUInt32, UInt32.toNat_toUInt16]
  omega

/-- A value that fits into a bit. -/
lemma bit_of_fits (h : v ≤ 1) : (v != 0).toUInt32 = v := by
  have hle : v.toNat ≤ 1 := UInt32.le_iff_toNat_le.mp h
  rcases (by omega : v.toNat = 0 ∨ v.toNat = 1) with hv | hv
  · obtain rfl : v = 0 := UInt32.toNat_inj.mp hv
    rfl
  · obtain rfl : v = 1 := UInt32.toNat_inj.mp hv
    rfl

/-- The lower nibble of a value is clear. -/
lemma toNat_clearLow (v : UInt32) : (v - v % 16).toNat = v.toNat - v.toNat % 16 := by
  have hmod : (v % 16).toNat = v.toNat % 16 := UInt32.toNat_mod v 16
  have hle : v % 16 ≤ v := UInt32.le_iff_toNat_le.mpr (hmod ▸ Nat.mod_le _ _)
  rw [UInt32.toNat_sub_of_le _ _ hle, hmod]

end

end RegisterId

/-- Of a byte that is stored into the flags the lower nibble is lost. -/
lemma Flags.toNat_toByte_ofByte (b : UInt8) :
    (ofByte b).toByte.toNat = b.toNat - b.toNat % 16 := by
  have hmask : ∀ n < 256, n &&& 0xF0 = n - n % 16 := by decide +kernel
  rw [toByte_ofByte, UInt8.toNat_and]
  exact hmask b.toNat b.toNat_lt

/-- Of a byte that is stored into a set of sources the lower five bits are left. -/
lemma Sources.toByte_ofByte (b : UInt8) : (ofByte b).toByte = b &&& 0x1F := by
  refine Byte.ext_bits fun i hi => ?_
  have hmask : Byte.bit 0x1F i = decide (i < 5) := Nat.testBit_two_pow_sub_one 5 i
  rw [toByte, Byte.bit_or, Byte.bit_or, Byte.bit_or, Byte.bit_or,
    Byte.bit_ofBit (by decide) _ hi, Byte.bit_ofBit (by decide) _ hi,
    Byte.bit_ofBit (by decide) _ hi, Byte.bit_ofBit (by decide) _ hi,
    Byte.bit_ofBit (by decide) _ hi, Byte.bit_and, hmask]
  rcases (by omega : i = 0 ∨ i = 1 ∨ i = 2 ∨ i = 3 ∨ i = 4 ∨ 5 ≤ i) with
    rfl | rfl | rfl | rfl | rfl | hhigh
  case inr.inr.inr.inr.inr =>
    have hne : i ≠ 0 ∧ i ≠ 1 ∧ i ≠ 2 ∧ i ≠ 3 ∧ i ≠ 4 := by omega
    simp [hne, Nat.not_lt.mpr hhigh]
  all_goals simp [ofByte]

namespace InterruptController

/-- The enable register reads as it was written. -/
lemma readEnable_writeEnable (c : InterruptController) (b : UInt8) :
    (c.writeEnable b).readEnable = b := by
  have hmasks : (b &&& 0xE0) ||| (b &&& 0x1F) = b := by
    apply UInt8.toNat_inj.mp
    rw [UInt8.toNat_or, UInt8.toNat_and, UInt8.toNat_and, ← Nat.and_or_distrib_left]
    exact (Nat.and_two_pow_sub_one_eq_mod b.toNat 8).trans (Nat.mod_eq_of_lt b.toNat_lt)
  rw [readEnable, writeEnable, Sources.toByte_ofByte, hmasks]

/-- The request register reads as it was written, with ones in the upper three bits. -/
lemma readRequest_writeRequest (c : InterruptController) (b : UInt8) :
    (c.writeRequest b).readRequest = b ||| 0xE0 := by
  have hmask : (0xE0 : UInt8) ||| (b &&& 0x1F) = b ||| 0xE0 := by
    refine Byte.ext_bits fun i hi => ?_
    have hlow : Byte.bit 0x1F i = !Byte.bit 0xE0 i := by
      revert i
      decide
    rw [Byte.bit_or, Byte.bit_or, Byte.bit_and, hlow]
    cases Byte.bit 0xE0 i <;> cases Byte.bit b i <;> rfl
  rw [readRequest, writeRequest, Sources.toByte_ofByte, hmask]

end InterruptController

/-! ### The registers of the processor -/

namespace Processor

variable {r s : RegisterId} {v : UInt32}

/-- A register of the processor shows what was stored into it. -/
lemma register?_store (p : Processor) (hr : ¬ r.OfInterrupts) (hv : v ≤ r.maxValue) :
    (p.store r v).register? r = some (r.shown v) := by
  cases r with
  | interruptEnable => exact absurd (.inl rfl) hr
  | interruptRequest => exact absurd (.inr rfl) hr
  | f =>
    refine congrArg some (UInt32.toNat_inj.mp ?_)
    have hle : v.toNat ≤ 0xFF := UInt32.le_iff_toNat_le.mp hv
    have hbyte : (Flags.ofByte v.toUInt8).toByte.toUInt32.toNat =
        v.toUInt8.toNat - v.toUInt8.toNat % 16 := by
      rw [UInt8.toNat_toUInt32, Flags.toNat_toByte_ofByte]
    rw [RegisterId.shown, RegisterId.toNat_clearLow]
    refine hbyte.trans ?_
    rw [UInt32.toNat_toUInt8]
    omega
  | af =>
    refine congrArg some (UInt32.toNat_inj.mp ?_)
    have hle : v.toNat ≤ 0xFFFF := UInt32.le_iff_toNat_le.mp hv
    have hpair : (p.regs.setAf v.toUInt16).af.toNat = 256 * (v.toUInt16.toNat / 256) +
        (v.toUInt16.toNat % 256 - v.toUInt16.toNat % 256 % 16) := by
      rw [Registers.af, Registers.setAf, Word.toNat_join, Word.toNat_high,
        Flags.toNat_toByte_ofByte, Word.toNat_low]
    rw [RegisterId.shown, RegisterId.toNat_clearLow]
    refine (UInt16.toNat_toUInt32 _).trans (hpair.trans ?_)
    rw [UInt32.toNat_toUInt16]
    omega
  | bc => exact congrArg some ((congrArg _ (Registers.bc_setBc _ _)).trans (RegisterId.word_of_fits hv))
  | de => exact congrArg some ((congrArg _ (Registers.de_setDe _ _)).trans (RegisterId.word_of_fits hv))
  | hl => exact congrArg some ((congrArg _ (Registers.hl_setHl _ _)).trans (RegisterId.word_of_fits hv))
  | pc | sp => exact congrArg some (RegisterId.word_of_fits hv)
  | ime | halt | stop => exact congrArg some (RegisterId.bit_of_fits hv)
  | _ => exact congrArg some (RegisterId.byte_of_fits hv)

/-- The registers that have no byte in common with it show what they showed before. -/
lemma register?_store_of_apart (p : Processor) (h : s.Apart r) :
    (p.store r v).register? s = p.register? s := by
  -- Either the registers have a byte in common, or they are kept in different places.
  cases r <;> cases s <;> first | exact absurd h (by decide) | rfl

/-- Storing into a register changes nothing but what registers show. -/
lemma exists_store_eq (p : Processor) (r : RegisterId) (v : UInt32) :
    ∃ regs ime halted stopped, p.store r v =
      { p with regs := regs, ime := ime, halted := halted, stopped := stopped } := by
  cases r <;> exact ⟨_, _, _, _, rfl⟩

/-- A pair is its two halves. -/
lemma register?_halves (p : Processor) {hi lo : RegisterId} (h : r.halves? = some (hi, lo)) :
    ∃ pair upper lower, p.register? r = some pair ∧ p.register? hi = some upper ∧
      p.register? lo = some lower ∧ pair.toNat = 256 * upper.toNat + lower.toNat := by
  cases r <;> cases h
  all_goals
    refine ⟨_, _, _, rfl, rfl, rfl, ?_⟩
    rw [UInt16.toNat_toUInt32, UInt8.toNat_toUInt32, UInt8.toNat_toUInt32]
    exact Word.toNat_join _ _

end Processor

/-! ### The registers of a machine -/

namespace Machine

variable {m m' : Machine} {r s : RegisterId} {v : UInt32}

/-- The views of a machine agree: a pair is its upper half times 256 plus its lower half, and the
registers of the interrupt controller are at their addresses of the bus. -/
structure Coherent (m : Machine) : Prop where
  pair : ∀ r hi lo, r.halves? = some (hi, lo) →
    (m.register r).toNat = 256 * (m.register hi).toNat + (m.register lo).toNat
  enable : m.register .interruptEnable = (m.bus.read 0xFFFF).toUInt32
  request : m.register .interruptRequest = (m.bus.read 0xFF0F).toUInt32

/-- Two machines that are equal, except perhaps for what the registers of the same component store:
one of the two of the interrupt controller, or those of the processor. -/
def EqualBeside (r : RegisterId) (m m' : Machine) : Prop :=
  match r with
  | .interruptEnable => ∃ bus, m.bus.EqualBut .interruptEnable bus ∧ m' = { m with bus := bus }
  | .interruptRequest => ∃ bus, m.bus.EqualBut .interruptRequest bus ∧ m' = { m with bus := bus }
  | _ => ∃ regs ime halted stopped, m' = { m with
      cpu := { m.cpu with regs := regs, ime := ime, halted := halted, stopped := stopped } }

/-- Two machines that are equal, except perhaps for what one register stores. -/
structure EqualBut (r : RegisterId) (m m' : Machine) : Prop where
  /-- The registers that have no byte in common with it show the same. -/
  registers : ∀ s : RegisterId, s.Apart r → m'.register s = m.register s
  /-- All that no register shows is the same. -/
  rest : EqualBeside r m m'

/-- A register of the processor. -/
lemma register_of_cpu (m : Machine) (hr : ¬ r.OfInterrupts) :
    m.register r = (m.cpu.register? r).getD 0 := by
  cases r with
  | interruptEnable => exact absurd (.inl rfl) hr
  | interruptRequest => exact absurd (.inr rfl) hr
  | _ => rfl

/-- The views of a machine always agree. -/
lemma coherent (m : Machine) : m.Coherent where
  pair r hi lo h := by
    have hcpu : ¬ r.OfInterrupts ∧ ¬ hi.OfInterrupts ∧ ¬ lo.OfInterrupts := by
      cases r <;> cases h <;> simp [RegisterId.OfInterrupts]
    obtain ⟨pair, upper, lower, hpair, hupper, hlower, hsum⟩ := m.cpu.register?_halves h
    rw [m.register_of_cpu hcpu.1, m.register_of_cpu hcpu.2.1, m.register_of_cpu hcpu.2.2, hpair,
      hupper, hlower]
    exact hsum
  enable := rfl
  request := rfl

/-- A value that fits is stored into a register of the processor. -/
lemma setRegister?_of_cpu (m : Machine) (hr : ¬ r.OfInterrupts) (hv : v ≤ r.maxValue) :
    m.setRegister? r v = some { m with cpu := m.cpu.store r v } := by
  have hcpu : m.cpu.setRegister? r v = some (m.cpu.store r v) := by
    rw [Processor.setRegister?, if_neg]
    rintro (hlt | hr')
    · exact UInt32.not_lt.mpr hv hlt
    · exact hr hr'
  cases r with
  | interruptEnable => exact absurd (.inl rfl) hr
  | interruptRequest => exact absurd (.inr rfl) hr
  | _ => exact congrArg (Option.map fun cpu => { m with cpu := cpu }) hcpu

/-- A value that fits is stored, the register shows it, and nothing else changes. -/
lemma exists_setRegister? (m : Machine) (hv : v ≤ r.maxValue) :
    ∃ m', m.setRegister? r v = some m' ∧ m'.register r = r.shown v ∧ m.EqualBut r m' := by
  by_cases hr : r.OfInterrupts
  · obtain rfl | rfl := hr
    · refine ⟨_, if_neg (UInt32.not_lt.mpr hv), ?_, fun s hs => ?_, _, ⟨_, _, rfl⟩, rfl⟩
      · calc ((m.bus.interrupts.writeEnable v.toUInt8).readEnable).toUInt32
            = v.toUInt8.toUInt32 := by rw [InterruptController.readEnable_writeEnable]
          _ = v := RegisterId.byte_of_fits hv
      · cases s <;> first | exact absurd hs (by decide) | rfl
    · refine ⟨_, if_neg (UInt32.not_lt.mpr hv), ?_, fun s hs => ?_, _, ⟨_, rfl⟩, rfl⟩
      · calc ((m.bus.interrupts.writeRequest v.toUInt8).readRequest).toUInt32
            = v.toUInt8.toUInt32 ||| 0xE0 := by
              rw [InterruptController.readRequest_writeRequest, UInt8.toUInt32_or]
              rfl
          _ = v ||| 0xE0 := by rw [RegisterId.byte_of_fits hv]
      · cases s <;> first | exact absurd hs (by decide) | rfl
  · refine ⟨_, m.setRegister?_of_cpu hr hv, ?_, fun s hs => ?_, ?_⟩
    · rw [register_of_cpu _ hr, m.cpu.register?_store hr hv]
      rfl
    · by_cases hs' : s.OfInterrupts
      · obtain rfl | rfl := hs'
        · rfl
        · rfl
      · rw [register_of_cpu _ hs', m.register_of_cpu hs', m.cpu.register?_store_of_apart hs]
    · obtain ⟨regs, ime, halted, stopped, hstore⟩ := m.cpu.exists_store_eq r v
      rw [hstore]
      cases r with
      | interruptEnable => exact absurd (.inl rfl) hr
      | interruptRequest => exact absurd (.inr rfl) hr
      | _ => exact ⟨_, _, _, _, rfl⟩

end Machine

namespace Console

/-- Storing into a register of a console succeeds if the value is not larger than the register can
hold, and otherwise changes nothing.  From then on the register shows the value, without a lower
nibble of the flags and with ones in the upper three bits of the request register, and everything is
as it was, except for what the register stores.  At all times a pair is its two halves, and the
registers of the interrupt controller are those at their addresses. -/
theorem setRegister_view {η : Type} {c : Console η} {m : Machine} (h : c.machine = some m)
    (r : RegisterId) (v : UInt32) :
    m.Coherent ∧
    (r.maxValue < v → c.setRegister r v = (false, c)) ∧
    (v ≤ r.maxValue → ∃ m', c.setRegister r v = (true, { c with machine := some m' }) ∧
      m'.register r = r.shown v ∧ m.EqualBut r m' ∧ m'.Coherent) := by
  refine ⟨m.coherent, fun hlt => ?_, fun hle => ?_⟩
  · rw [setRegister, h, Option.bind_some, (m.setRegister?_eq_none_iff r v).mpr hlt]
  · obtain ⟨m', hset, hshown, hbut⟩ := m.exists_setRegister? hle
    refine ⟨m', ?_, hshown, hbut, m'.coherent⟩
    rw [setRegister, h, Option.bind_some, hset]

/-- The pair AF loses the lower nibble of the flags, and a value of more than two bytes is refused.
-/
theorem setRegister_view_af : ∃ m m', (unused.load Cartridge.plainImage).2.machine = some m ∧
    RegisterId.af.maxValue < 0x10000 ∧ (0x12FF : UInt32) ≤ RegisterId.af.maxValue ∧
    let c := (unused.load Cartridge.plainImage).2
    c.setRegister .af 0x10000 = (false, c) ∧
    c.setRegister .af 0x12FF = (true, { c with machine := some m' }) ∧
    m'.register .af = 0x12F0 ∧ m'.register .hl = m.register .hl ∧
    (m'.register .af).toNat = 256 * (m'.register .a).toNat + (m'.register .f).toNat := by
  obtain ⟨-, header, hm⟩ := load_plainImage unused
  have hlarge : RegisterId.af.maxValue < 0x10000 := by decide
  have hfits : (0x12FF : UInt32) ≤ RegisterId.af.maxValue := by decide
  have hrefused := (setRegister_view hm .af 0x10000).2.1 hlarge
  obtain ⟨m', hset, hshown, hbut, hcoherent⟩ := (setRegister_view hm .af 0x12FF).2.2 hfits
  exact ⟨_, m', hm, hlarge, hfits, hrefused, hset, hshown, hbut.registers .hl (by decide),
    hcoherent.pair .af .a .f rfl⟩

end Console

end Handheld
