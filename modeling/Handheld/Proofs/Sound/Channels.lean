import Handheld.Proofs.Saved.Devices
import Handheld.Proofs.Sound.Lengths

/-!
# When a sound channel is active

Four kinds of writes decide whether a channel is active, and they come in any order: a length
register loads the length counter, a converter register switches the converter, a trigger register
starts the channel, and the power switch clears everything.  Besides, the frame sequencer counts
the length down.  `Sound.Ready` says what an active channel needs, and `Sound.Orderly` that every
active channel has it, that no length counter is over its full length, and that nothing is left over
from the time before the power was switched off.

A write to a register changes this register and what its role demands.  The register of the
converter of a channel has the one role that can make the channel unready, and then stops it; every
other register leaves the converter alone (`Sound.ready_set`).  So the invariant is kept by each
write and each clock of the length counters, hence by all that happens to the sound hardware after
the console was switched on (`Sound.Reached.orderly`).  The main statement is
`Sound.active_has_length`.
-/

namespace Handheld

/-- A byte is at least a power of two if it has a bit at this place or above. -/
lemma Byte.two_pow_le_iff (v : UInt8) (n : Nat) :
    2 ^ n ≤ v.toNat ↔ ∃ i < 8, n ≤ i ∧ bit v i = true := by
  refine ⟨fun hle => ?_, ?_⟩
  · obtain ⟨i, hni, hi⟩ := Nat.exists_ge_and_testBit_of_ge_two_pow hle
    exact ⟨i, lt_of_bit hi, hni, hi⟩
  · rintro ⟨i, -, hni, hi⟩
    exact Nat.le_trans (Nat.pow_le_pow_right (by decide) hni) (Nat.ge_two_pow_of_testBit hi)

namespace Channel

/-- A length register counts down from the full length, and takes only as many bits as this has. -/
lemma toNat_lengthOf (c : Channel) (v : UInt8) :
    (c.lengthOf v).toNat = c.fullLength.toNat - v.toNat % c.fullLength.toNat := by
  have hv : v.toNat < 256 := v.toNat_lt
  have hmask : (v &&& 0x3F).toNat = v.toNat % 64 := by
    rw [UInt8.toNat_and]
    exact Nat.and_two_pow_sub_one_eq_mod v.toNat 6
  have hsub : ∀ a b : UInt16, b.toNat ≤ a.toNat → (a - b).toNat = a.toNat - b.toNat :=
    fun a b h => UInt16.toNat_sub_of_le a b (UInt16.le_iff_toNat_le.mpr h)
  cases c with
  | wave =>
    change (256 - v.toUInt16).toNat = 256 - v.toNat % 256
    rw [hsub, UInt8.toNat_toUInt16, Nat.mod_eq_of_lt hv]
    · rfl
    · exact Nat.le_of_lt hv
  | _ =>
    change (64 - (v &&& 0x3F).toUInt16).toNat = 64 - v.toNat % 64
    rw [hsub, UInt8.toNat_toUInt16, hmask]
    · rfl
    · rw [UInt8.toNat_toUInt16, hmask]
      exact Nat.le_of_lt (Nat.mod_lt _ (by decide))

/-- A full length counter has something to count. -/
lemma fullLength_pos (c : Channel) : 0 < c.fullLength.toNat := by
  cases c <;> decide

/-- A length register never asks for more than the full length, and never for nothing. -/
lemma lengthOf_bounds (c : Channel) (v : UInt8) :
    c.lengthOf v ≠ 0 ∧ c.lengthOf v ≤ c.fullLength := by
  have hmod : v.toNat % c.fullLength.toNat < c.fullLength.toNat := Nat.mod_lt _ c.fullLength_pos
  refine ⟨fun hzero => ?_, ?_⟩
  · have htoNat := c.toNat_lengthOf v
    rw [hzero, UInt16.toNat_zero] at htoNat
    omega
  · rw [UInt16.le_iff_toNat_le, toNat_lengthOf]
    exact Nat.sub_le _ _

/-- A converter is on if one of the upper five bits of its register is set, and that of the wave
channel if the highest one is. -/
lemma converterOn_iff (c : Channel) (v : UInt8) :
    c.converterOn v = true ↔ (if c = .wave then 128 else 8) ≤ v.toNat := by
  have hhighest : Byte.bit v 7 = true ↔ 2 ^ 7 ≤ v.toNat := by
    rw [Byte.two_pow_le_iff]
    refine ⟨fun hbit => ⟨7, by decide, Nat.le_refl 7, hbit⟩, ?_⟩
    rintro ⟨i, hi, hle, hbit⟩
    obtain rfl : i = 7 := by omega
    exact hbit
  have hmask : ∀ i < 8, Byte.bit 0xF8 i = decide (3 ≤ i) := by decide
  have hupper : (v &&& 0xF8 != 0) = true ↔ 2 ^ 3 ≤ v.toNat := by
    rw [bne_iff_ne, Byte.ne_zero_iff, Byte.two_pow_le_iff]
    refine exists_congr fun i => and_congr_right fun hi => ?_
    rw [Byte.bit_and, hmask i hi, Bool.and_eq_true, decide_eq_true_eq, and_comm]
  cases c with
  | wave => exact hhighest
  | _ => exact hupper

end Channel

namespace Sound

variable {s : Sound} {c : Channel}

/-- What a channel needs to be active: its converter is on, and its length counter has not run
out. -/
def Ready (s : Sound) (c : Channel) : Prop :=
  s.converterOn c = true ∧ s.length.get c ≠ 0

/-- Sound hardware that no write and no clock has left in disorder. -/
structure Orderly (s : Sound) : Prop where
  /-- No length counter is over its full length. -/
  length_le : ∀ c, s.length.get c ≤ c.fullLength
  /-- Only channels that are ready are active. -/
  ready : ∀ c, s.active.get c = true → s.Ready c
  /-- Without power all registers and length counters are clear. -/
  clear : s.power = false → s.registers = Vector.replicate 0x17 0 ∧ s.length = .all 0

/-! ### Writes -/

/-- A length counter that a write changes is not over its full length. -/
lemma length_respond_le (h : ∀ c, s.length.get c ≤ c.fullLength) (role : Role) (v : UInt8)
    (c : Channel) : (s.respond role v).length.get c ≤ c.fullLength := by
  cases role with
  | length d =>
    simp only [respond, PerChannel.get_set]
    split
    · rename_i hd
      subst hd
      exact (d.lengthOf_bounds v).2
    · exact h c
  | converter d =>
    simp only [respond]
    split
    · exact h c
    · exact h c
  | trigger d =>
    simp only [respond]
    split
    · rw [trigger_eq]
      simp only [PerChannel.get_set]
      split
      · rename_i hd
        subst hd
        split
        · exact UInt16.le_refl _
        · exact h d
      · exact h c
    · exact h c
  | plain => exact h c

/-- Starting a channel makes it active only if it is ready. -/
lemma ready_trigger (h : s.active.get c = true → s.Ready c) (d : Channel)
    (hactive : (s.trigger d).active.get c = true) : (s.trigger d).Ready c := by
  rw [trigger_eq] at hactive ⊢
  rw [PerChannel.get_set] at hactive
  by_cases hd : d = c
  · subst hd
    rw [if_pos rfl] at hactive
    have hon : s.converterOn d = true := by
      rcases Bool.or_eq_true_iff.mp hactive with hbefore | hon
      · exact (h hbefore).1
      · exact hon
    refine ⟨hon, ?_⟩
    rw [PerChannel.get_set, if_pos rfl]
    split
    · intro hzero
      exact Nat.ne_of_gt d.fullLength_pos (congrArg UInt16.toNat hzero)
    · assumption
  · rw [if_neg hd] at hactive
    obtain ⟨hon, hlength⟩ := h hactive
    refine ⟨hon, ?_⟩
    rw [PerChannel.get_set, if_neg hd]
    exact hlength

/-- What a write does besides leaves only ready channels active, if the replaced register has not
made one unready. -/
lemma ready_respond (h : s.active.get c = true → s.Ready c) (role : Role) (v : UInt8)
    (hactive : (s.respond role v).active.get c = true) : (s.respond role v).Ready c := by
  cases role with
  | length d =>
    obtain ⟨hon, hlength⟩ := h hactive
    refine ⟨hon, ?_⟩
    simp only [respond, PerChannel.get_set]
    split
    · exact (d.lengthOf_bounds v).1
    · exact hlength
  | converter d =>
    simp only [respond] at hactive ⊢
    split at hactive
    · rename_i hon
      rw [if_pos hon]
      exact h hactive
    · rename_i hoff
      rw [if_neg hoff]
      rw [PerChannel.get_set] at hactive
      split at hactive
      · cases hactive
      · exact h hactive
  | trigger d =>
    simp only [respond] at hactive ⊢
    split at hactive
    · rename_i hstart
      rw [if_pos hstart]
      exact ready_trigger h d hactive
    · rename_i hstart
      rw [if_neg hstart]
      exact h hactive
  | plain => exact h hactive

/-- A write to a register leaves only ready channels active.  Only the register of its own converter
can make a channel unready, and this one stops it. -/
theorem ready_set (h : s.active.get c = true → s.Ready c) {i : Nat} (hi : i < 0x17) (v : UInt8)
    (hactive : ({ s with registers := s.registers.set i v hi }.respond (.of i) v).active.get c =
      true) : ({ s with registers := s.registers.set i v hi }.respond (.of i) v).Ready c := by
  by_cases hplace : i = c.converterRegister
  · have hrole : Role.of i = .converter c := by
      rw [hplace]
      cases c <;> rfl
    have hon : { s with registers := s.registers.set i v hi }.converterOn c = c.converterOn v := by
      subst hplace
      simp [converterOn]
    rw [hrole] at hactive ⊢
    simp only [respond] at hactive ⊢
    split at hactive
    · rename_i hv
      rw [if_pos hv]
      exact ⟨hon.trans hv, (h hactive).2⟩
    · rw [PerChannel.get_set, if_pos rfl] at hactive
      cases hactive
  · have hon : { s with registers := s.registers.set i v hi }.converterOn c = s.converterOn c := by
      simp [converterOn, hplace]
    refine ready_respond (fun hbefore => ?_) _ v hactive
    obtain ⟨hready, hlength⟩ := h hbefore
    exact ⟨hon.trans hready, hlength⟩

namespace Orderly

/-- Without power no channel is active. -/
lemma active_eq_false (hs : s.Orderly) (hpower : s.power = false) (c : Channel) :
    s.active.get c = false := by
  cases hactive : s.active.get c with
  | false => rfl
  | true =>
    have hlength : s.length.get c ≠ 0 := (hs.ready c hactive).2
    rw [(hs.clear hpower).2, PerChannel.get_all] at hlength
    exact absurd rfl hlength

/-- The power switch leaves order behind. -/
lemma setPower (hs : s.Orderly) (on : Bool) : (s.setPower on).Orderly := by
  have hempty : ∀ c : Channel, (0 : UInt16) ≤ c.fullLength := fun _ => UInt16.zero_le
  unfold Sound.setPower
  split
  · refine ⟨fun c => ?_, fun c hactive => ?_, fun _ => ⟨rfl, rfl⟩⟩
    · rw [PerChannel.get_all]
      exact hempty c
    · rw [PerChannel.get_all] at hactive
      cases hactive
  · exact ⟨hs.length_le, hs.ready, nofun⟩
  · exact hs

/-- A write leaves order behind. -/
lemma write (hs : s.Orderly) (r v : UInt8) : (s.write r v).Orderly := by
  unfold Sound.write
  simp only
  split
  · rename_i hr
    split
    · rename_i hpower
      have hi : r.toNat - 0x10 < 0x17 := by omega
      refine ⟨fun c => ?_, fun c hactive => ready_set (hs.ready c) hi v hactive, fun hoff => ?_⟩
      · exact length_respond_le (s := { s with registers := s.registers.set _ v hi })
          hs.length_le ..
      · obtain ⟨active, length, hrespond⟩ := exists_respond_eq
          { s with registers := s.registers.set (r.toNat - 0x10) v hi } (.of (r.toNat - 0x10)) v
        rw [hrespond] at hoff
        exact absurd (hpower.symm.trans hoff) (by decide)
    · exact hs
  split
  · exact hs.setPower _
  split
  · exact ⟨hs.length_le, hs.ready, hs.clear⟩
  · exact hs

/-! ### Time -/

/-- A clock of the length counters leaves order behind: a channel whose counter runs out stops. -/
lemma clockLengths (hs : s.Orderly) : s.clockLengths.Orderly := by
  refine ⟨fun c => ?_, fun c hactive => ?_, fun hoff => ?_⟩
  · have hle : (s.length.get c).toNat ≤ c.fullLength.toNat :=
      UInt16.le_iff_toNat_le.mp (hs.length_le c)
    rw [UInt16.le_iff_toNat_le, toNat_length_clockLengths]
    exact Nat.le_trans (Nat.sub_le _ _) hle
  · rw [active_clockLengths, Bool.and_eq_true] at hactive
    obtain ⟨hbefore, hlast⟩ := hactive
    obtain ⟨hon, hlength⟩ := hs.ready c hbefore
    have hpos : (s.length.get c).toNat ≠ 0 := fun hzero => hlength (UInt16.toNat_inj.mp hzero)
    refine ⟨hon, fun hzero => ?_⟩
    have hleft := s.toNat_length_clockLengths c
    rw [hzero, UInt16.toNat_zero] at hleft
    -- Nothing is left of a counter with something to count only if this clock was its last.
    cases henabled : s.lengthEnabled c with
    | false =>
      rw [henabled, if_neg Bool.false_ne_true] at hleft
      exact hpos hleft.symm
    | true =>
      rw [henabled, if_pos rfl] at hleft
      have hone : (s.length.get c).toNat = 1 := by omega
      rw [henabled, decide_eq_true hone] at hlast
      cases hlast
  · obtain ⟨hregisters, hlength⟩ := hs.clear hoff
    have hrests : ∀ c, s.clockLengths.length.get c = 0 := by
      intro c
      rw [← UInt16.toNat_inj, toNat_length_clockLengths, hlength, PerChannel.get_all]
      exact Nat.zero_sub _
    exact ⟨hregisters, congrArg PerChannel.ofFn (funext hrests)⟩

/-- A step of the frame sequencer does no more than this to the channels. -/
lemma sequencerStep (hs : s.Orderly) : s.sequencerStep.Orderly := by
  unfold Sound.sequencerStep
  simp only
  split
  · have hclocked : s.clockLengths.Orderly := hs.clockLengths
    exact ⟨hclocked.length_le, hclocked.ready, hclocked.clear⟩
  · exact ⟨hs.length_le, hs.ready, hs.clear⟩

/-- Any number of steps of the frame sequencer. -/
lemma sequencerSteps (hs : s.Orderly) (n : Nat) : (Sound.sequencerSteps n s).Orderly := by
  induction n generalizing s with
  | zero => exact hs
  | succ n ih => exact ih hs.sequencerStep

/-- Time leaves order behind. -/
lemma advance (hs : s.Orderly) (cycles : UInt32) : (s.advance cycles).Orderly := by
  unfold Sound.advance
  split
  · have hphase : Orderly { s with phase := (s.phase + cycles) % sequencerCycles } :=
      ⟨hs.length_le, hs.ready, hs.clear⟩
    exact hphase.sequencerSteps _
  · exact hs

end Orderly

/-! ### Everything that happens -/

/-- The sound hardware that writes and time lead to, from the moment the console is switched on. -/
inductive Reached : Sound → Prop
  | cold : Reached .cold
  | write {s : Sound} (r v : UInt8) : Reached s → Reached (s.write r v)
  | advance {s : Sound} (cycles : UInt32) : Reached s → Reached (s.advance cycles)

/-- The sound hardware that writes and time lead to can be saved. -/
lemma Reached.wellFormed (hs : s.Reached) : s.WellFormed := by
  induction hs with
  | cold => exact wellFormed_cold
  | write r v _ ih => exact ih.write r v
  | advance cycles _ ih => exact ih.advance cycles

/-- The sound hardware that writes and time lead to is in order. -/
theorem Reached.orderly (hs : s.Reached) : s.Orderly := by
  induction hs with
  | cold =>
    refine ⟨fun c => ?_, fun c hactive => ?_, fun _ => ⟨rfl, rfl⟩⟩
    · exact UInt16.le_iff_toNat_le.mpr (Nat.le_of_lt (by cases c <;> decide))
    · cases c <;> cases hactive
  | write r v _ ih => exact ih.write r v
  | advance cycles _ ih => exact ih.advance cycles

/-- The byte of active channels has four bits. -/
lemma toNat_activeByte_lt (s : Sound) : s.activeByte.toNat < 16 := by
  have hall : ∀ b₀ b₁ b₂ b₃ : Bool, (Byte.ofBit 0 b₀ ||| Byte.ofBit 1 b₁ ||| Byte.ofBit 2 b₂ |||
      Byte.ofBit 3 b₃).toNat < 16 := by
    decide
  exact hall s.active.square1 s.active.square2 s.active.wave s.active.noise

/-- Whatever is written and however much time passes after the console was switched on: the counters
of the sound hardware stay in their ranges, nothing is left in it without power, and a channel is
active only while the power and its converter are on and its length counter has something left to
count.  The converter of the wave channel is the highest bit of its register, and that of the others
the upper five bits. -/
theorem active_has_length (hs : s.Reached) :
    s.activeByte.toNat < 16 ∧ s.phase.toNat < 8192 ∧ s.sequence.toNat < 8 ∧
    (∀ c, (s.length.get c).toNat ≤ if c = .wave then 256 else 64) ∧
    (s.power = false →
      s.registers = Vector.replicate 0x17 0 ∧ s.length = .all 0 ∧ s.activeByte = 0) ∧
    ∀ c, s.active.get c = true → s.power = true ∧ 0 < (s.length.get c).toNat ∧
      (if c = .wave then 128 else 8) ≤ (s.registers.get c.converterRegister).toNat := by
  have horderly : s.Orderly := hs.orderly
  have hwell : s.WellFormed := hs.wellFormed
  refine ⟨s.toNat_activeByte_lt, UInt32.lt_iff_toNat_lt.mp hwell.phase, ?_, fun c => ?_,
    fun hoff => ?_, fun c hactive => ?_⟩
  · rw [← hwell.sequence, UInt8.toNat_and]
    exact Nat.lt_succ_of_le Nat.and_le_right
  · have hle := UInt16.le_iff_toNat_le.mp (horderly.length_le c)
    cases c <;> exact hle
  · obtain ⟨hregisters, hlength⟩ := horderly.clear hoff
    have hactive : s.active = .all false :=
      congrArg PerChannel.ofFn (funext (horderly.active_eq_false hoff))
    refine ⟨hregisters, hlength, ?_⟩
    rw [activeByte, hactive]
    decide
  · obtain ⟨hon, hlength⟩ := horderly.ready c hactive
    refine ⟨?_, ?_, (c.converterOn_iff _).mp hon⟩
    · rw [← Bool.not_eq_false]
      intro hoff
      rw [horderly.active_eq_false hoff] at hactive
      cases hactive
    · exact Nat.pos_of_ne_zero fun hzero => hlength (UInt16.toNat_inj.mp hzero)

/-- After the first clock the channel has one left. -/
theorem active_has_length_counting :
    (counting.advance 8192).Reached ∧ (counting.advance 8192).active.get .square1 = true ∧
      (counting.advance 8192).power = true ∧
      0 < ((counting.advance 8192).length.get .square1).toNat := by
  have hreached : (counting.advance 8192).Reached :=
    ((((Reached.cold.write 0x26 0x80).write 0x12 0xF0).write 0x11 0x3E).write 0x14 0xC0).advance _
  have hactive : (counting.advance 8192).active.get .square1 = true := by decide
  obtain ⟨-, -, -, -, -, hneeds⟩ := active_has_length hreached
  obtain ⟨hpower, hlength, -⟩ := hneeds .square1 hactive
  exact ⟨hreached, hactive, hpower, hlength⟩

end Sound

end Handheld
