import Handheld.Proofs.Additive.Bus
import Handheld.Proofs.Checked.Basic

/-!
# Devices that never trap: sound, joypad, serial link and timer

For each device the accesses and the passage of time are repeated with checked operations: a sound
register is looked up at its address less `0x10`, a length counter is one less than before, and each
device takes periods off its counter of cycles in a loop.  A well-formed device does the same as
with total operations, and so never traps: the main statements are `Sound.checkedRead_eq`,
`Sound.checkedWrite_eq`, and `checkedAdvance_eq` for each of the devices.
-/

namespace Handheld

/-! ### Sound -/

namespace Channel

/-- The number of a channel, from zero to three. -/
def number : Channel → Nat
  | square1 => 0
  | square2 => 1
  | wave => 2
  | noise => 3

/-- The channels by their numbers. -/
def list : List Channel := [square1, square2, wave, noise]

/-- The length counter that a value of the length register sets. -/
def checkedLengthOf : Channel → UInt8 → Checked UInt16
  | wave, v => Checked.sub 256 v.toUInt16
  | _, v => Checked.sub 64 (v &&& 0x3F).toUInt16

/-- A length register never asks for more than the full length. -/
lemma checkedLengthOf_eq (c : Channel) (v : UInt8) :
    c.checkedLengthOf v = .ok (c.lengthOf v) := by
  have hfull : v.toUInt16 ≤ 256 := by
    have hv := v.toNat_lt
    rw [UInt16.le_iff_toNat_le, UInt8.toNat_toUInt16]
    change v.toNat ≤ 256
    omega
  have hmasked : (v &&& 0x3F).toUInt16 ≤ 64 := by
    have hv : v.toNat &&& 0x3F ≤ 0x3F := Nat.and_le_right
    rw [UInt16.le_iff_toNat_le, UInt8.toNat_toUInt16, UInt8.toNat_and]
    change v.toNat &&& 0x3F ≤ 64
    omega
  cases c with
  | wave => exact Checked.sub_of_le hfull
  | _ => exact Checked.sub_of_le hmasked

end Channel

namespace PerChannel

variable {α : Type}

/-- Look up the value for the channel of a given number. -/
def checkedGet (p : PerChannel α) (i : Nat) : Checked α :=
  Checked.get #v[p.square1, p.square2, p.wave, p.noise] i

/-- Replace the value for the channel of a given number. -/
def checkedSet (p : PerChannel α) (i : Nat) (a : α) : Checked (PerChannel α) := do
  let v ← Checked.set #v[p.square1, p.square2, p.wave, p.noise] i a
  return ⟨v[0], v[1], v[2], v[3]⟩

@[simp] lemma checkedGet_number (p : PerChannel α) (c : Channel) :
    p.checkedGet c.number = .ok (p.get c) := by
  cases c <;> rfl

@[simp] lemma checkedSet_number (p : PerChannel α) (c : Channel) (a : α) :
    p.checkedSet c.number a = .ok (p.set c a) := by
  cases c <;> rfl

end PerChannel

namespace Sound

variable {s : Sound}

/-- Look up the register with a given low address byte. -/
def checkedRegister (s : Sound) (r : UInt8) : Checked UInt8 := do
  let i ← Checked.sub r 0x10
  Checked.get s.registers i.toNat

/-- Read the register with a given low address byte. -/
def checkedRead (s : Sound) (r : UInt8) : Checked UInt8 :=
  if 0x10 ≤ r.toNat ∧ r.toNat ≤ 0x25 then do
    let v ← s.checkedRegister r
    let i ← Checked.sub r 0x10
    let mask ← Checked.get readMask i.toNat
    return v ||| mask
  else if r.toNat = 0x26 then
    return 0x70 ||| Byte.ofBit 7 s.power ||| s.activeByte
  else if 0x30 ≤ r.toNat ∧ r.toNat ≤ 0x3F then do
    let i ← Checked.sub r 0x30
    Checked.get s.waveRam i.toNat
  else return 0xFF

/-- Whether the converter of a channel is on. -/
def checkedConverterOn (s : Sound) (c : Channel) : Checked Bool := do
  let v ← s.checkedRegister (.ofNat (0x10 + c.converterRegister))
  return c.converterOn v

/-- Start a channel. -/
def checkedTrigger (s : Sound) (c : Channel) : Checked Sound := do
  let n ← s.length.checkedGet c.number
  let length ← if n = 0 then s.length.checkedSet c.number c.fullLength else pure s.length
  let s := { s with length := length }
  let on ← s.checkedConverterOn c
  return if on then { s with active := s.active.set c true } else s

/-- What a write does besides replacing the register. -/
def checkedRespond (s : Sound) (role : Role) (v : UInt8) : Checked Sound :=
  match role with
  | .length c => do
    let n ← c.checkedLengthOf v
    let length ← s.length.checkedSet c.number n
    return { s with length := length }
  | .trigger c => if Byte.bit v 7 then s.checkedTrigger c else pure s
  | role => pure (s.respond role v)

/-- Write the register with a given low address byte. -/
def checkedWrite (s : Sound) (r v : UInt8) : Checked Sound :=
  if 0x10 ≤ r.toNat ∧ r.toNat ≤ 0x25 then
    if s.power then do
      let i ← Checked.sub r 0x10
      let registers ← Checked.set s.registers i.toNat v
      { s with registers := registers }.checkedRespond (.of i.toNat) v
    else pure s
  else if r.toNat = 0x26 then
    pure (s.setPower (Byte.bit v 7))
  else if 0x30 ≤ r.toNat ∧ r.toNat ≤ 0x3F then do
    let i ← Checked.sub r 0x30
    let waveRam ← Checked.set s.waveRam i.toNat v
    return { s with waveRam := waveRam }
  else pure s

/-- Clock the length counter of a channel. -/
def checkedClock (s : Sound) (c : Channel) : Checked Sound := do
  let control ← s.checkedRegister (.ofNat (0x10 + c.triggerRegister))
  let n ← s.length.checkedGet c.number
  if !Byte.bit control 6 || n == 0 then return s
  let n ← Checked.sub n 1
  let length ← s.length.checkedSet c.number n
  return { s with
    length := length
    active := if n = 0 then s.active.set c false else s.active }

/-- Take a step of the frame sequencer. -/
def checkedSequencerStep (s : Sound) : Checked Sound := do
  let s ← if s.sequence.toNat % 2 = 0 then Channel.list.foldlM checkedClock s else pure s
  let sequence ← Checked.succ s.sequence
  return { s with sequence := sequence &&& 7 }

/-- Let cycles pass. -/
def checkedAdvance (s : Sound) (cycles : UInt32) : Checked Sound :=
  if s.power then do
    let (phase, s) ← Checked.countdown (fun _ => sequencerCycles) (fun _ => true)
      checkedSequencerStep (s.phase + cycles) s
    return { s with phase := phase }
  else pure s

/-! #### Accesses -/

/-- A register is found at its place. -/
lemma checkedRegister_eq {r : UInt8} {i : Nat} (hi : i < 0x17) (hr : r.toNat = 0x10 + i) :
    s.checkedRegister r = .ok s.registers[i] := by
  obtain ⟨place, hsub, hplace⟩ := Checked.sub_byte (k := 0x10) r 0x10 rfl (by omega)
  obtain rfl : place.toNat = i := by omega
  rw [checkedRegister, hsub, Checked.ok_bind, Checked.get_of_lt hi]

/-- The sound registers can be read. -/
theorem checkedRead_eq (s : Sound) (r : UInt8) : s.checkedRead r = .ok (s.read r) := by
  unfold checkedRead Sound.read
  simp only
  split
  · rename_i hr
    have hplace : r.toNat - 0x10 < 0x17 := by omega
    obtain ⟨i, hsub, hi⟩ := Checked.sub_byte (k := 0x10) r 0x10 rfl hr.1
    rw [checkedRegister_eq hplace (by omega), hsub, Checked.ok_bind, Checked.ok_bind, hi,
      Checked.get_of_lt hplace]
    rfl
  split
  · rfl
  split
  · rename_i hr
    have hplace : r.toNat - 0x30 < 16 := by omega
    obtain ⟨i, hsub, hi⟩ := Checked.sub_byte (k := 0x30) r 0x30 rfl hr.1
    rw [hsub, Checked.ok_bind, hi, Checked.get_of_lt hplace]
  · rfl

/-- The converter switch of each channel is found. -/
lemma checkedConverterOn_eq (s : Sound) (c : Channel) :
    s.checkedConverterOn c = .ok (s.converterOn c) := by
  cases c <;> rfl

/-- Every channel can be started. -/
lemma checkedTrigger_eq (s : Sound) (c : Channel) : s.checkedTrigger c = .ok (s.trigger c) := by
  unfold checkedTrigger Sound.trigger
  rw [PerChannel.checkedGet_number, Checked.ok_bind]
  by_cases h : s.length.get c = 0
  · rw [if_pos h, if_pos h, PerChannel.checkedSet_number, Checked.ok_bind]
    simp only [checkedConverterOn_eq, Checked.ok_bind]
    rfl
  · rw [if_neg h, if_neg h, Checked.pure_eq, Checked.ok_bind]
    simp only [checkedConverterOn_eq, Checked.ok_bind]
    rfl

/-- Every register can respond to a write. -/
lemma checkedRespond_eq (s : Sound) (role : Role) (v : UInt8) :
    s.checkedRespond role v = .ok (s.respond role v) := by
  cases role with
  | length c =>
    simp only [checkedRespond, Channel.checkedLengthOf_eq, PerChannel.checkedSet_number,
      Checked.ok_bind]
    rfl
  | trigger c =>
    simp only [checkedRespond, Sound.respond]
    split
    · exact checkedTrigger_eq s c
    · rfl
  | converter c => rfl
  | plain => rfl

/-- The sound registers can be written. -/
theorem checkedWrite_eq (s : Sound) (r v : UInt8) : s.checkedWrite r v = .ok (s.write r v) := by
  unfold checkedWrite Sound.write
  simp only
  split
  · rename_i hr
    split
    · have hplace : r.toNat - 0x10 < 0x17 := by omega
      obtain ⟨i, hsub, hi⟩ := Checked.sub_byte (k := 0x10) r 0x10 rfl hr.1
      rw [hsub, Checked.ok_bind, hi, Checked.set_of_lt hplace, Checked.ok_bind,
        checkedRespond_eq]
    · rfl
  split
  · rfl
  split
  · rename_i hr
    have hplace : r.toNat - 0x30 < 16 := by omega
    obtain ⟨i, hsub, hi⟩ := Checked.sub_byte (k := 0x30) r 0x30 rfl hr.1
    rw [hsub, Checked.ok_bind, hi, Checked.set_of_lt hplace]
    rfl
  · rfl

/-! #### Time -/

/-- Clock the length counter of a channel; a channel whose counter runs out stops. -/
def clock (s : Sound) (c : Channel) : Sound :=
  if s.counts c then
    { s with
      length := s.length.set c (s.length.get c - 1)
      active := if s.length.get c - 1 = 0 then s.active.set c false else s.active }
  else s

/-- The length counter of each channel can be clocked. -/
lemma checkedClock_eq (s : Sound) (c : Channel) : s.checkedClock c = .ok (s.clock c) := by
  have hregister : s.checkedRegister (.ofNat (0x10 + c.triggerRegister)) =
      .ok s.registers[c.triggerRegister] := by
    cases c <;> rfl
  have hcounts : s.counts c =
      !(!Byte.bit s.registers[c.triggerRegister] 6 || s.length.get c == 0) := by
    simp [counts, lengthEnabled, bne]
  unfold checkedClock clock
  rw [hregister, Checked.ok_bind, PerChannel.checkedGet_number, Checked.ok_bind, hcounts]
  by_cases hrests : (!Byte.bit s.registers[c.triggerRegister] 6 || s.length.get c == 0) = true
  · simp only [hrests, if_true, Bool.not_true, Bool.false_eq_true, if_false]
    rfl
  · simp only [Bool.not_eq_true] at hrests
    have hpos : 1 ≤ s.length.get c := by
      simp only [Bool.or_eq_false_iff, beq_eq_false_iff_ne, ne_eq] at hrests
      exact UInt16.le_iff_toNat_le.mpr
        (Nat.one_le_iff_ne_zero.mpr fun h => hrests.2 (UInt16.toNat_inj.mp h))
    simp only [hrests, Bool.not_false, Bool.false_eq_true, if_true, if_false,
      Checked.sub_of_le hpos, Checked.ok_bind, PerChannel.checkedSet_number]
    rfl

/-- What becomes of the length counter of a channel and of the channel, whether it counts or not. -/
lemma clock_eq (s : Sound) (c : Channel) : s.clock c = { s with
    length := s.length.set c (if s.counts c then s.length.get c - 1 else s.length.get c)
    active := s.active.set c (s.active.get c && !(s.counts c && s.length.get c == 1)) } := by
  unfold clock
  by_cases hcounts : s.counts c = true
  · have hzero : s.length.get c - 1 = 0 ↔ s.length.get c = 1 := by
      rw [UInt16.sub_eq_iff_eq_add, UInt16.zero_add]
    by_cases hone : s.length.get c = 1
    · simp [hcounts, hone]
    · have hbeq : (s.length.get c == 1) = false := beq_eq_false_iff_ne.mpr hone
      simp [hcounts, hone, hbeq, hzero]
  · simp [hcounts]

/-- The length counters are clocked one after another. -/
lemma foldl_clock (s : Sound) : Channel.list.foldl clock s = s.clockLengths := by
  simp only [Channel.list, List.foldl_cons, List.foldl_nil, clock_eq]
  rfl

/-- The length counters can be clocked. -/
lemma foldlM_checkedClock (s : Sound) :
    Channel.list.foldlM checkedClock s = .ok s.clockLengths := by
  rw [← foldl_clock]
  simp only [Channel.list, List.foldlM_cons, List.foldlM_nil, checkedClock_eq, Checked.ok_bind,
    List.foldl_cons, List.foldl_nil, Checked.pure_eq]

/-- A well-formed frame sequencer can step on. -/
lemma checkedSequencerStep_eq (hs : s.WellFormed) :
    s.checkedSequencerStep = .ok s.sequencerStep := by
  have hlt : s.sequence.toNat < 255 :=
    Nat.lt_of_le_of_lt (Checked.toNat_le_of_and hs.sequence) (by decide)
  have hlt' : s.clockLengths.sequence.toNat < 255 := hlt
  unfold checkedSequencerStep sequencerStep
  by_cases heven : s.sequence.toNat % 2 = 0
  · simp only [heven, if_true, foldlM_checkedClock, Checked.ok_bind, Checked.succ_of_lt hlt',
      Checked.pure_eq]
  · simp only [heven, if_false, Checked.pure_eq, Checked.ok_bind, Checked.succ_of_lt hlt]

/-- Well-formed sound hardware lets time pass. -/
theorem checkedAdvance_eq (hs : s.WellFormed) (cycles : UInt32) :
    s.checkedAdvance cycles = .ok (s.advance cycles) := by
  unfold checkedAdvance
  by_cases hpower : s.power = true
  · have hloop := Checked.countdown_eq WellFormed sequencerSteps
      (by decide : 0 < sequencerCycles) (fun _ => rfl)
      (fun s hs => ⟨_, checkedSequencerStep_eq hs, hs.sequencerStep, fun _ => rfl⟩)
      (s.phase + cycles) hs
    have hphase := sequencerSteps_phase ((s.phase + cycles) / sequencerCycles).toNat s
      ((s.phase + cycles) % sequencerCycles)
    rw [if_pos hpower, hloop, Checked.ok_bind, advance_of_power hpower, hphase]
    rfl
  · rw [if_neg hpower, advance_of_not_power hpower]
    rfl

end Sound

/-! ### The joypad -/

namespace Joypad

variable {η : Type} [Host η] {period : UInt32} {j : Joypad}

/-- Ask the host once. -/
def checkedPoll : Joypad × η × Bool → Checked (Joypad × η × Bool)
  | (j, host, fell) =>
    let (b, host) := Host.pollButtons host
    let (j, fell') := j.latch b
    pure (j, host, fell || fell')

/-- Put the counter of cycles to a saved value, which may be past the end of the period. -/
def checkedSetPhase (j : Joypad) (v : UInt32) : Checked Joypad := do
  let phase ← Checked.rem v j.period
  return { j with phase := phase }

/-- Let cycles pass. -/
def checkedAdvance (j : Joypad) (cycles : UInt32) (host : η) : Checked (Joypad × η × Bool) := do
  let (phase, j, host, fell) ← Checked.countdown (fun _ => j.period) (fun _ => true) checkedPoll
    (j.phase + cycles) (j, host, false)
  return ({ j with phase := phase }, host, fell)

/-- The period of a well-formed joypad is not zero. -/
lemma WellFormed.period_pos (hj : j.WellFormed period) : 0 < j.period :=
  UInt32.lt_of_le_of_lt UInt32.zero_le hj.phase

/-- The counter of a well-formed joypad can be put to every saved value. -/
lemma checkedSetPhase_eq (hj : j.WellFormed period) (v : UInt32) :
    j.checkedSetPhase v = .ok { j with phase := v % j.period } := by
  rw [checkedSetPhase, Checked.rem_of_pos hj.period_pos]
  rfl

-- A joypad without a period traps.
example (v : UInt32) : { (.every 1 : Joypad) with period := 0 }.checkedSetPhase v =
    .error .divisor := rfl

/-- A well-formed joypad lets time pass. -/
theorem checkedAdvance_eq (hj : j.WellFormed period) (cycles : UInt32) (host : η) :
    j.checkedAdvance cycles host = .ok (j.advance cycles host) := by
  have hloop := Checked.countdown_eq (fun _ => True)
    (fun n (p : Joypad × η × Bool) => poll n p.1 p.2.1 p.2.2) hj.period_pos (fun _ => rfl)
    (fun p _ => ⟨_, (rfl : checkedPoll p = .ok _), trivial, fun _ => rfl⟩) (j.phase + cycles)
    (s := (j, host, false)) trivial
  have hphase := poll_phase ((j.phase + cycles) / j.period).toNat j
    ((j.phase + cycles) % j.period) host false
  unfold checkedAdvance Joypad.advance
  rw [hloop, Checked.ok_bind, hphase]
  rfl

end Joypad

/-! ### The serial link -/

namespace Serial

variable {η : Type} [Host η] {s : Serial}

/-- Send a bit; the byte is exchanged after the eighth. -/
def checkedBit : Serial × η × Bool → Checked (Serial × η × Bool)
  | (s, host, received) => do
    let bits ← Checked.succ s.bits
    if bits = 8 then
      let (incoming, host) := Host.exchange host s.sb
      return (s.finish incoming, host, true)
    else return ({ s with bits := bits }, host, received)

/-- Let cycles pass. -/
def checkedAdvance (s : Serial) (cycles : UInt32) (host : η) :
    Checked (Serial × η × Bool) :=
  if s.driving then do
    let (phase, s, host, received) ← Checked.countdown (fun _ => bitCycles) (·.1.transferring)
      checkedBit (s.phase + cycles) (s, host, false)
    -- The end of an exchange has put the counter back.
    return (if s.transferring then { s with phase := phase } else s, host, received)
  else return (s, host, false)

/-- The number of the next bit. -/
lemma toNat_bits_succ (hbits : s.bits.toNat < 8) : (s.bits + 1).toNat = s.bits.toNat + 1 := by
  rw [UInt8.toNat_add]
  exact Nat.mod_eq_of_lt (show s.bits.toNat + 1 < 256 by omega)

/-- A bit that is not the last one is counted. -/
lemma checkedBit_of_lt (hbits : s.bits.toNat + 1 < 8) (host : η) :
    checkedBit (s, host, false) = .ok ({ s with bits := s.bits + 1 }, host, false) := by
  have hne : s.bits + 1 ≠ 8 := by
    intro heq
    have hnumber := toNat_bits_succ (s := s) (by omega)
    rw [heq] at hnumber
    exact Nat.ne_of_gt hbits hnumber
  rw [checkedBit, Checked.succ_of_lt (by omega), Checked.ok_bind, if_neg hne]
  rfl

/-- The eighth bit ends the exchange. -/
lemma checkedBit_of_eq (hbits : s.bits = 7) (host : η) : checkedBit (s, host, false) =
    .ok (s.finish (Host.exchange host s.sb).1, (Host.exchange host s.sb).2, true) := by
  have hlt : s.bits.toNat < 255 := by
    rw [hbits]
    decide
  have heq : s.bits + 1 = 8 := by
    rw [hbits]
    rfl
  rw [checkedBit, Checked.succ_of_lt hlt, Checked.ok_bind, if_pos heq]
  rfl

/-- Bits are sent for as long as the counter holds a whole one, if there are fewer than eight in
all. -/
lemma countdown_of_bits_lt (hs : s.transferring = true) (host : η) (phase : UInt32)
    (hbits : s.bits.toNat + (phase / bitCycles).toNat < 8) :
    Checked.countdown (fun _ => bitCycles) (·.1.transferring) checkedBit phase (s, host, false) =
      .ok (phase % bitCycles, { s with
        bits := UInt8.ofNat (s.bits.toNat + (phase / bitCycles).toNat) }, host, false) := by
  induction h : phase.toNat using Nat.strongRecOn generalizing phase s with
  | _ k ih =>
    subst h
    by_cases hle : bitCycles ≤ phase
    · rw [Checked.toNat_div_of_le bitCycles_pos hle] at hbits ⊢
      have hsum : (s.bits + 1).toNat + ((phase - bitCycles) / bitCycles).toNat =
          s.bits.toNat + (((phase - bitCycles) / bitCycles).toNat + 1) := by
        rw [toNat_bits_succ (by omega)]
        omega
      have hrest := ih _ (Checked.toNat_sub_lt bitCycles_pos hle)
        (s := { s with bits := s.bits + 1 }) hs (phase - bitCycles) (hsum.trans_lt hbits) rfl
      rw [Checked.countdown_of_le (s := (s, host, false)) bitCycles_pos hle hs
        (checkedBit_of_lt (by omega) host), hrest, Checked.sub_mod_of_le hle]
      simp only [hsum]
    · have hlt := UInt32.not_le.mp hle
      rw [Checked.countdown_of_lt (s := (s, host, false)) hlt, UInt32.mod_eq_of_lt hlt,
        Checked.toNat_div_of_lt hlt, Nat.add_zero, UInt8.ofNat_toNat]

/-- The exchange ends with the eighth bit. -/
lemma countdown_of_le_bits (hs : s.transferring = true) (hlt : s.bits.toNat < 8) (host : η)
    (phase : UInt32) (hbits : 8 ≤ s.bits.toNat + (phase / bitCycles).toNat) :
    ∃ rest, Checked.countdown (fun _ => bitCycles) (·.1.transferring) checkedBit phase
      (s, host, false) =
        .ok (rest, s.finish (Host.exchange host s.sb).1, (Host.exchange host s.sb).2, true) := by
  induction h : phase.toNat using Nat.strongRecOn generalizing phase s with
  | _ k ih =>
    subst h
    by_cases hle : bitCycles ≤ phase
    · by_cases hlast : s.bits = 7
      · refine ⟨phase - bitCycles, ?_⟩
        rw [Checked.countdown_of_le (s := (s, host, false)) bitCycles_pos hle hs
          (checkedBit_of_eq hlast host), Checked.countdown_of_not]
        simp [transferring_finish]
      · have hlt' : s.bits.toNat + 1 < 8 := by
          have hne : s.bits.toNat ≠ 7 := fun h => hlast (UInt8.toNat_inj.mp h)
          omega
        have hnext := toNat_bits_succ hlt
        rw [Checked.toNat_div_of_le bitCycles_pos hle] at hbits
        obtain ⟨rest, hrest⟩ := ih _ (Checked.toNat_sub_lt bitCycles_pos hle)
          (s := { s with bits := s.bits + 1 }) hs (hnext.trans_lt hlt') (phase - bitCycles)
          (show 8 ≤ (s.bits + 1).toNat + ((phase - bitCycles) / bitCycles).toNat by omega) rfl
        refine ⟨rest, ?_⟩
        rw [Checked.countdown_of_le (s := (s, host, false)) bitCycles_pos hle hs
          (checkedBit_of_lt hlt' host), hrest]
        rfl
    · rw [Checked.toNat_div_of_lt (UInt32.not_le.mp hle)] at hbits
      omega

/-- A well-formed serial link lets time pass. -/
theorem checkedAdvance_eq (hs : s.WellFormed) (cycles : UInt32) (host : η) :
    s.checkedAdvance cycles host = .ok (s.advance cycles host) := by
  unfold checkedAdvance
  by_cases hdriving : s.driving = true
  · have htransferring : s.transferring = true := (Bool.and_eq_true_iff.mp hdriving).1
    have hlt : s.bits.toNat < 8 :=
      Nat.lt_of_le_of_lt (Checked.toNat_le_of_and hs.bits) (by decide)
    rw [if_pos hdriving]
    obtain hbits | hbits := Nat.lt_or_ge (s.bitsAfter cycles) 8
    · rw [countdown_of_bits_lt htransferring host _ hbits, advance_of_lt hdriving hbits,
        Checked.ok_bind]
      exact congrArg (fun s => Except.ok (s, host, false)) (if_pos htransferring)
    · obtain ⟨rest, hrest⟩ := countdown_of_le_bits htransferring hlt host _ hbits
      rw [hrest, advance_of_le hdriving hbits, Checked.ok_bind]
      simp [transferring_finish]
  · rw [if_neg hdriving, advance_of_not_driving hdriving]
    rfl

end Serial

/-! ### The timer -/

namespace Timer

/-- Count once. -/
def checkedCount (tma : UInt8) : UInt8 × Bool → Checked (UInt8 × Bool)
  | (tima, raised) => pure (if tima = 0xFF then (tma, true) else (tima + 1, raised))

/-- Let cycles pass. -/
def checkedAdvance (t : Timer) (cycles : UInt32) : Checked (Timer × Bool) :=
  let divider := t.divider + cycles.toUInt16
  if t.running then do
    let (phase, tima, raised) ← Checked.countdown (fun _ => t.period) (fun _ => true)
      (checkedCount t.tma) (t.phase + cycles) (t.tima, false)
    return ({ t with tima := tima, divider := divider, phase := phase }, raised)
  else return ({ t with divider := divider }, false)

/-- The timer lets time pass. -/
theorem checkedAdvance_eq (t : Timer) (cycles : UInt32) :
    t.checkedAdvance cycles = .ok (t.advance cycles) := by
  have hround (p : UInt8 × Bool) : ∃ p', checkedCount t.tma p = .ok p' ∧ True ∧
      ∀ n, count t.tma (n + 1) p.1 p.2 = count t.tma n p'.1 p'.2 := by
    refine ⟨_, rfl, trivial, fun n => ?_⟩
    rw [count]
    split
    · rfl
    · rfl
  by_cases hrunning : t.running = true
  · have hloop := Checked.countdown_eq (fun _ => True)
      (fun n (p : UInt8 × Bool) => count t.tma n p.1 p.2) t.period_pos (fun _ => rfl)
      (fun p _ => hround p) (t.phase + cycles) (s := (t.tima, false)) trivial
    rw [advance_of_running hrunning, checkedAdvance, if_pos hrunning, hloop]
    rfl
  · rw [advance_of_not_running hrunning, checkedAdvance, if_neg hrunning]
    rfl

end Timer

end Handheld
