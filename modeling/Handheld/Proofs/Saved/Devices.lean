import Handheld.Clock
import Handheld.Dma
import Handheld.Interrupt
import Handheld.Joypad
import Handheld.Processor
import Handheld.Proofs.Record
import Handheld.Serial
import Handheld.Sound
import Handheld.Timer

/-!
# Devices in saved states

Loading a device masks its registers, reduces its counters, and refuses those that have run past
their end.  For each device, `WellFormed` says that its registers hold only bits that there are and
that its counters stay below their periods.  The lemmas here say that a fresh device is well-formed,
that it stays so whatever a program writes and however much time passes, and that a well-formed
device goes over completely (`carry?_record`).
-/

namespace Handheld

/-! ### The timer -/

namespace Timer

/-- A timer that can be saved. -/
structure WellFormed (t : Timer) : Prop where
  /-- The control register has three bits. -/
  tac : t.tac &&& 0x07 = t.tac
  /-- Less than a period has passed since the last count. -/
  phase : t.phase < t.period

variable {s t : Timer}

/-- A fresh timer can be saved. -/
lemma wellFormed_default : ({} : Timer).WellFormed := ⟨by decide, by decide⟩

/-- The period depends only on the two lowest bits of the control register. -/
lemma period_congr (h : s.tac.toNat % 4 = t.tac.toNat % 4) : s.period = t.period := by
  rw [period, period, h]

/-- The bits that the control register does not have do not matter for the period. -/
lemma toNat_mask (v : UInt8) : (v &&& 0x07).toNat % 4 = v.toNat % 4 := by
  have h : v.toNat &&& 7 = v.toNat % 2 ^ 3 := Nat.and_two_pow_sub_one_eq_mod v.toNat 3
  rw [UInt8.toNat_and]
  change (v.toNat &&& 7) % 4 = v.toNat % 4
  omega

namespace WellFormed

/-- A write starts a period anew whenever it changes the period. -/
lemma write (ht : t.WellFormed) (r v : UInt8) : (t.write r v).WellFormed := by
  unfold Timer.write
  split
  · exact ⟨ht.tac, t.period_pos⟩
  · exact ⟨ht.tac, ht.phase⟩
  · exact ⟨ht.tac, ht.phase⟩
  · refine ⟨Byte.and_mask_mask _ _, ?_⟩
    split
    · rename_i hsame
      have hperiod : ({ t with phase := t.phase, tac := v &&& 0x07 } : Timer).period = t.period :=
        period_congr ((toNat_mask v).trans hsame)
      rw [hperiod]
      exact ht.phase
    · exact period_pos _
  · exact ht

/-- Time passes modulo the period. -/
lemma advance (ht : t.WellFormed) (cycles : UInt32) : (t.advance cycles).1.WellFormed := by
  unfold Timer.advance
  simp only
  split
  · exact ⟨ht.tac, UInt32.mod_lt _ (period_pos _)⟩
  · exact ⟨ht.tac, ht.phase⟩

end WellFormed

/-- A well-formed timer goes over completely. -/
theorem carry?_record (hs : s.WellFormed) (t : Timer) : Record.carry? record s t = some s := by
  obtain ⟨tima, tma, tac, divider, phase⟩ := s
  have htac : tac &&& 0x07 = tac := hs.tac
  have hphase : phase < ({ tima, tma, tac, divider, phase } : Timer).period := hs.phase
  simp [record, htac, hphase]

end Timer

/-! ### The serial link -/

namespace Serial

/-- A serial link that can be saved. -/
structure WellFormed (s : Serial) : Prop where
  /-- The control register has two bits. -/
  sc : s.sc &&& 0x81 = s.sc
  /-- Less than a bit has passed since the last one. -/
  phase : s.phase < bitCycles
  /-- Fewer than eight bits have been sent. -/
  bits : s.bits &&& 0x07 = s.bits

variable {s : Serial}

/-- A fresh serial link can be saved. -/
lemma wellFormed_default : ({} : Serial).WellFormed := ⟨by decide, by decide, by decide⟩

/-- A bit takes time. -/
lemma bitCycles_pos : 0 < bitCycles := by decide

/-- A count below eight needs three bits. -/
lemma mask_ofNat {n : Nat} (h : n < 8) : UInt8.ofNat n &&& 0x07 = UInt8.ofNat n := by
  have hmask : n &&& 7 = n % 2 ^ 3 := Nat.and_two_pow_sub_one_eq_mod n 3
  have hn : (UInt8.ofNat n).toNat = n := by
    rw [UInt8.toNat_ofNat']
    omega
  apply UInt8.toNat_inj.mp
  rw [UInt8.toNat_and, hn]
  change n &&& 7 = n
  omega

namespace WellFormed

/-- A write to the control register starts anew. -/
lemma write (hs : s.WellFormed) (r v : UInt8) : (s.write r v).WellFormed := by
  unfold Serial.write
  split
  · exact ⟨hs.sc, hs.phase, hs.bits⟩
  · exact ⟨Byte.and_mask_mask _ _, bitCycles_pos, UInt8.zero_and⟩
  · exact hs

/-- The end of an exchange leaves no counter running. -/
lemma finish (hs : s.WellFormed) (incoming : UInt8) : (s.finish incoming).WellFormed := by
  refine ⟨?_, bitCycles_pos, UInt8.zero_and⟩
  have hsc : s.sc &&& 0x7F &&& 0x81 = s.sc &&& 0x81 &&& 0x7F := by
    rw [UInt8.and_assoc, UInt8.and_assoc, UInt8.and_comm 0x7F]
  exact hsc.trans (congrArg (· &&& 0x7F) hs.sc)

/-- Time passes modulo a bit, and the eighth bit ends the exchange. -/
lemma advance {η : Type} [Host η] (hs : s.WellFormed) (cycles : UInt32) (host : η) :
    (s.advance cycles host).1.WellFormed := by
  unfold Serial.advance
  simp only
  split
  · split
    · rename_i hbits
      exact ⟨hs.sc, UInt32.mod_lt _ bitCycles_pos, mask_ofNat hbits⟩
    · exact hs.finish _
  · exact hs

/-- A byte from outside ends the exchange that waited for it. -/
lemma receive (hs : s.WellFormed) {incoming out : UInt8} {s' : Serial}
    (h : s.receive? incoming = some (out, s')) : s'.WellFormed := by
  unfold Serial.receive? at h
  split at h
  · obtain ⟨-, rfl⟩ := Prod.mk.inj (Option.some.inj h)
    exact hs.finish incoming
  · cases h

end WellFormed

/-- A well-formed serial link goes over completely. -/
theorem carry?_record (hs : s.WellFormed) (t : Serial) : Record.carry? record s t = some s := by
  simp [record, hs.sc, hs.bits, hs.phase]

end Serial

/-! ### The joypad -/

namespace Joypad

/-- A joypad that asks once in a given number of cycles and can be saved. -/
structure WellFormed (period : UInt32) (j : Joypad) : Prop where
  /-- There are two groups to select. -/
  select : j.select &&& 0x30 = j.select
  period : j.period = period
  /-- Less than a period has passed since the last question. -/
  phase : j.phase < j.period

variable {period : UInt32} {s t j : Joypad}

/-- A fresh joypad can be saved. -/
lemma wellFormed_every (cycles : UInt32) : (every cycles).WellFormed (every cycles).period :=
  ⟨UInt8.and_self, rfl, period_every_pos cycles⟩

/-- Asking the host changes the buttons only. -/
lemma poll_fst {η : Type} [Host η] (n : Nat) (j : Joypad) (host : η) (fell : Bool) :
    ∃ b, (poll n j host fell).1 = { j with buttons := b } := by
  induction n generalizing j host fell with
  | zero => exact ⟨j.buttons, rfl⟩
  | succ n ih =>
    obtain ⟨b, hb⟩ := ih (j.latch (Host.pollButtons host).1).1 (Host.pollButtons host).2
      (fell || (j.latch (Host.pollButtons host).1).2)
    exact ⟨b, hb⟩

namespace WellFormed

/-- A write selects groups. -/
lemma write (hj : j.WellFormed period) (v : UInt8) : (j.write v).WellFormed period :=
  ⟨Byte.and_mask_mask _ _, hj.period, hj.phase⟩

/-- Time passes modulo the period. -/
lemma advance {η : Type} [Host η] (hj : j.WellFormed period) (cycles : UInt32) (host : η) :
    (j.advance cycles host).1.WellFormed period := by
  have hpos : 0 < j.period := UInt32.lt_of_le_of_lt UInt32.zero_le hj.phase
  obtain ⟨b, hb⟩ := poll_fst ((j.phase + cycles) / j.period).toNat
    { j with phase := (j.phase + cycles) % j.period } host false
  unfold Joypad.advance
  simp only [hb]
  exact ⟨hj.select, hj.period, UInt32.mod_lt _ hpos⟩

end WellFormed

/-- A well-formed joypad goes over completely to one that asks as often. -/
theorem carry?_record (hs : s.WellFormed period) (ht : t.period = period) :
    Record.carry? record s t = some s := by
  have hperiod : t.period = s.period := ht.trans hs.period.symm
  have hphase : s.phase % s.period = s.phase := UInt32.mod_eq_of_lt hs.phase
  simp [record, hs.select, hperiod, hphase]

end Joypad

/-! ### Sound -/

namespace Sound

/-- Sound hardware that can be saved. -/
structure WellFormed (s : Sound) : Prop where
  /-- Less than a period of the frame sequencer has passed since its last step. -/
  phase : s.phase < sequencerCycles
  /-- There are eight steps. -/
  sequence : s.sequence &&& 7 = s.sequence

variable {s t : Sound}

/-- The sound hardware of a console that has just been switched on can be saved. -/
lemma wellFormed_cold : cold.WellFormed := ⟨by decide, by decide⟩

/-- The sound hardware after the start-up program can be saved. -/
lemma wellFormed_postBoot : postBoot.WellFormed := ⟨by decide, by decide⟩

/-- Sound hardware with the same frame sequencer. -/
lemma WellFormed.congr (hs : s.WellFormed) (hphase : t.phase = s.phase)
    (hsequence : t.sequence = s.sequence) : t.WellFormed := by
  refine ⟨?_, ?_⟩
  · rw [hphase]
    exact hs.phase
  · rw [hsequence]
    exact hs.sequence

/-- Starting a channel fills its length counter if this ran out, and makes it active if its
converter is on. -/
lemma trigger_eq (s : Sound) (c : Channel) : s.trigger c = { s with
    active := s.active.set c (s.active.get c || s.converterOn c)
    length := s.length.set c (if s.length.get c = 0 then c.fullLength else s.length.get c) } := by
  have hon : ∀ length, { s with length := length }.converterOn c = s.converterOn c := fun _ => rfl
  unfold trigger
  by_cases hlength : s.length.get c = 0
  · cases h : s.converterOn c <;> simp [hlength, hon, h]
  · cases h : s.converterOn c <;> simp [hlength, h]

/-- What a write to a register does besides has to do with the channels only. -/
lemma exists_respond_eq (s : Sound) (role : Role) (v : UInt8) :
    ∃ active length, s.respond role v = { s with active := active, length := length } := by
  cases role with
  | length c => exact ⟨s.active, _, rfl⟩
  | converter c =>
    simp only [respond]
    split
    · exact ⟨s.active, s.length, rfl⟩
    · exact ⟨_, s.length, rfl⟩
  | trigger c =>
    simp only [respond]
    split
    · exact ⟨_, _, trigger_eq s c⟩
    · exact ⟨s.active, s.length, rfl⟩
  | plain => exact ⟨s.active, s.length, rfl⟩

namespace WellFormed

/-- The power switch starts the frame sequencer anew, or leaves it alone. -/
lemma setPower (hs : s.WellFormed) (on : Bool) : (s.setPower on).WellFormed := by
  unfold Sound.setPower
  split
  · exact hs.congr rfl rfl
  · exact ⟨hs.phase, UInt8.zero_and⟩
  · exact hs

/-- A write leaves the frame sequencer well-formed. -/
lemma write (hs : s.WellFormed) (r v : UInt8) : (s.write r v).WellFormed := by
  unfold Sound.write
  simp only
  split
  · rename_i hr
    split
    · obtain ⟨active, length, hrespond⟩ := exists_respond_eq
        { s with registers := s.registers.set (r.toNat - 0x10) v (by omega) }
        (.of (r.toNat - 0x10)) v
      rw [hrespond]
      exact hs.congr rfl rfl
    · exact hs
  split
  · exact hs.setPower _
  split
  · exact hs.congr rfl rfl
  · exact hs

/-- The frame sequencer counts its steps modulo eight. -/
lemma sequencerStep (hs : s.WellFormed) : s.sequencerStep.WellFormed := by
  refine ⟨?_, Byte.and_mask_mask _ _⟩
  unfold Sound.sequencerStep
  simp only
  split
  · exact hs.phase
  · exact hs.phase

/-- Any number of steps of the frame sequencer. -/
lemma sequencerSteps (hs : s.WellFormed) (n : Nat) : (Sound.sequencerSteps n s).WellFormed := by
  induction n generalizing s with
  | zero => exact hs
  | succ n ih => exact ih hs.sequencerStep

/-- Time passes modulo the period of the frame sequencer. -/
lemma advance (hs : s.WellFormed) (cycles : UInt32) : (s.advance cycles).WellFormed := by
  unfold Sound.advance
  split
  · have hphase : (s.phase + cycles) % sequencerCycles < sequencerCycles :=
      UInt32.mod_lt _ (by decide)
    have hs' : WellFormed { s with phase := (s.phase + cycles) % sequencerCycles } :=
      ⟨hphase, hs.sequence⟩
    exact hs'.sequencerSteps _
  · exact hs

end WellFormed

/-- The byte of active channels says of each channel whether it is active. -/
lemma bit_activeByte (s : Sound) :
    (⟨Byte.bit s.activeByte 0, Byte.bit s.activeByte 1, Byte.bit s.activeByte 2,
      Byte.bit s.activeByte 3⟩ : PerChannel Bool) = s.active := by
  unfold activeByte
  obtain ⟨square1, square2, wave, noise⟩ := s.active
  cases square1 <;> cases square2 <;> cases wave <;> cases noise <;> decide

/-- Well-formed sound hardware goes over completely. -/
theorem carry?_record (hs : s.WellFormed) (t : Sound) : Record.carry? record s t = some s := by
  have hactive := bit_activeByte s
  obtain ⟨registers, waveRam, power, active, ⟨square1, square2, wave, noise⟩, phase, sequence⟩ := s
  have hphase : phase < sequencerCycles := hs.phase
  have hsequence : sequence &&& 7 = sequence := hs.sequence
  simp only [record, lengthItem, Record.carry?_cons, Record.carry?_nil, Item.carry?_word,
    Item.carry?_byte, Item.carry?_check, Item.carry?_flag, Item.carry?_half, Item.carry?_vector,
    Option.bind_some, hsequence, hphase, hactive, decide_true, if_true]
  rfl

end Sound

/-! ### The transfer into sprite memory -/

namespace Dma

/-- A transfer that can be saved. -/
structure WellFormed (d : Dma) : Prop where
  index : d.index ≤ length
  /-- A transfer that is under way is not over. -/
  active : d.active = true → d.index ≠ length

variable {d s : Dma}

/-- Without a transfer there is something to save as well. -/
lemma wellFormed_default : ({} : Dma).WellFormed := ⟨by decide, by decide⟩

/-- A transfer begins at its first byte. -/
lemma wellFormed_start (page : UInt8) : (start page).WellFormed := 
  ⟨UInt8.zero_le, fun _ => (by decide : (0 : UInt8) ≠ 0xA0)⟩

/-- A transfer under way has a byte left. -/
lemma WellFormed.toNat_index_lt (hd : d.WellFormed) (hactive : d.active = true) :
    d.index.toNat < 0xA0 := by
  have hle := UInt8.le_iff_toNat_le.mp hd.index
  have hne : d.index.toNat ≠ 0xA0 := fun h => hd.active hactive (UInt8.toNat_inj.mp h)
  change d.index.toNat ≤ 0xA0 at hle
  omega

/-- A transfer under way ends with the last byte. -/
lemma WellFormed.next (hd : d.WellFormed) (hactive : d.active = true) : d.next.WellFormed := by
  have hlt := hd.toNat_index_lt hactive
  refine ⟨?_, ?_⟩
  · apply UInt8.le_iff_toNat_le.mpr
    have hsucc : (d.index + 1).toNat = d.index.toNat + 1 := by
      rw [UInt8.toNat_add]
      change (d.index.toNat + 1) % 256 = d.index.toNat + 1
      omega
    change (d.index + 1).toNat ≤ 0xA0
    omega
  · intro h
    simpa [Dma.next] using h

/-- A well-formed transfer goes over completely. -/
theorem carry?_record (hs : s.WellFormed) (t : Dma) : Record.carry? record s t = some s := by
  obtain ⟨page, active, index⟩ := s
  have hindex : index ≤ length := hs.index
  have hactive : active = true → index ≠ length := hs.active
  cases active with
  | false => simp [record, hindex]
  | true => simp [record, hindex, hactive]

end Dma

/-! ### Interrupts -/

namespace InterruptController

/-- An interrupt controller that can be saved: the enable register has three idle bits. -/
def WellFormed (c : InterruptController) : Prop := c.enableUpper &&& 0xE0 = c.enableUpper

variable {c s : InterruptController}

/-- A write to the enable register keeps the idle bits only. -/
lemma wellFormed_writeEnable (c : InterruptController) (v : UInt8) :
    (c.writeEnable v).WellFormed := Byte.and_mask_mask _ _

/-- A masked byte has no bits below its mask. -/
lemma bit_of_masked {u : UInt8} (hu : u &&& 0xE0 = u) {i : Nat} (hi : i < 5) :
    Byte.bit u i = false := by
  have hmask : ∀ i < 5, Byte.bit 0xE0 i = false := by decide
  rw [← hu, Byte.bit_and, hmask i hi, Bool.and_false]

/-- The sources in the enable register. -/
lemma ofByte_readEnable (hs : s.WellFormed) : Sources.ofByte s.readEnable = s.enabled := by
  have hbit : ∀ i, i < 5 → Byte.bit s.readEnable i = Byte.bit s.enabled.toByte i := by
    intro i hi
    have hu := bit_of_masked hs hi
    unfold Byte.bit at hu ⊢
    rw [readEnable, UInt8.toNat_or, Nat.testBit_or, hu, Bool.false_or]
  have hsources : Sources.ofByte s.readEnable = Sources.ofByte s.enabled.toByte := by
    simp only [Sources.ofByte, hbit 0 (by decide), hbit 1 (by decide), hbit 2 (by decide),
      hbit 3 (by decide), hbit 4 (by decide)]
  rw [hsources, Sources.ofByte_toByte]

/-- The idle bits in the enable register. -/
lemma mask_readEnable (hs : s.WellFormed) : s.readEnable &&& 0xE0 = s.enableUpper := by
  have hsources : s.enabled.toByte &&& 0xE0 = 0 := by
    rcases s.enabled with ⟨_ | _, _ | _, _ | _, _ | _, _ | _⟩ <;> decide
  have hdistrib : (s.enableUpper ||| s.enabled.toByte) &&& 0xE0 =
      (s.enableUpper &&& 0xE0) ||| (s.enabled.toByte &&& 0xE0) := by
    apply UInt8.toNat_inj.mp
    simp only [UInt8.toNat_and, UInt8.toNat_or, Nat.and_or_distrib_right]
  rw [readEnable, hdistrib, hsources, UInt8.or_zero]
  exact hs

/-- A well-formed interrupt controller goes over completely. -/
theorem carry?_record (hs : s.WellFormed) (t : InterruptController) :
    Record.carry? record s t = some s := by
  simp [record, writeEnable, writeRequest, ofByte_readEnable hs, mask_readEnable hs]

end InterruptController

/-! ### The clock and the processor -/

/-- A clock goes over completely. -/
theorem Clock.carry?_record (s t : Clock) : Record.carry? record s t = some s := rfl

/-- A processor goes over, except that it is not traced unless the other one is. -/
theorem Processor.carry?_record (s t : Processor) :
    Record.carry? record s t = some { s with trace := t.trace } := by
  simp [record, Registers.af, Registers.setAf, Registers.bc, Registers.setBc, Registers.de,
    Registers.setDe, Registers.hl, Registers.setHl]

end Handheld
