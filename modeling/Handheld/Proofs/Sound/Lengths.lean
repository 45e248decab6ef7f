import Handheld.Proofs.Additive.Devices

/-!
# When the length counters run out

The frame sequencer takes a step every 8192 cycles, and every second of its eight steps clocks the
length counters.  `Sound.clocks` is the number of clocks among a number of steps, and
`Sound.clocked` is what they make of the channels, without a loop: a counter that is enabled goes
down to zero and stays there, and the channel stops when it gets there.

One clock less is left after each clock (`Sound.clocked_clockLengths`), and from this follows what
any number of steps does, by induction over the steps (`Sound.sequencerSteps_eq`).  The main
statement is `Sound.lengths_expire`.
-/

namespace Handheld

namespace Sound

variable {s : Sound}

/-! ### Clocks -/

/-- A clock takes one off the length counter of a channel, if this is enabled. -/
lemma toNat_length_clockLengths (s : Sound) (c : Channel) :
    (s.clockLengths.length.get c).toNat =
      (s.length.get c).toNat - if s.lengthEnabled c then 1 else 0 := by
  rw [clockLengths, PerChannel.get_ofFn, counts]
  cases s.lengthEnabled c with
  | false => rfl
  | true =>
    by_cases hzero : s.length.get c = 0
    · simp [hzero]
    · have hpos : 1 ≤ s.length.get c :=
        UInt16.le_iff_toNat_le.mpr (Nat.one_le_iff_ne_zero.mpr fun h =>
          hzero (UInt16.toNat_inj.mp h))
      have hcounts : (true && s.length.get c != 0) = true := by simp [hzero]
      rw [if_pos hcounts, UInt16.toNat_sub_of_le _ _ hpos]
      rfl

/-- A clock stops a channel whose enabled length counter was at one. -/
lemma active_clockLengths (s : Sound) (c : Channel) :
    s.clockLengths.active.get c =
      (s.active.get c && !(s.lengthEnabled c && decide ((s.length.get c).toNat = 1))) := by
  have hone : (s.length.get c == 1) = decide ((s.length.get c).toNat = 1) := by
    rw [Bool.eq_iff_iff, beq_iff_eq, decide_eq_true_eq, ← UInt16.toNat_inj]
    rfl
  rw [clockLengths, PerChannel.get_ofFn, counts, hone]
  by_cases hlast : (s.length.get c).toNat = 1
  · have hcounts : (s.length.get c != 0) = true := by
      rw [bne_iff_ne]
      intro hzero
      rw [hzero] at hlast
      cases hlast
    rw [hcounts, Bool.and_true]
  · rw [decide_eq_false hlast, Bool.and_false, Bool.and_false]

/-- What `n` clocks make of the channels. -/
def clocked (s : Sound) (n : Nat) : Sound :=
  { s with
    length := .ofFn fun c => .ofNat ((s.length.get c).toNat - if s.lengthEnabled c then n else 0)
    active := .ofFn fun c =>
      s.active.get c &&
        !(s.lengthEnabled c && decide (0 < (s.length.get c).toNat ∧ (s.length.get c).toNat ≤ n)) }

/-- Without a clock nothing happens. -/
lemma clocked_zero (s : Sound) : s.clocked 0 = s := by
  have hlength : ∀ c, UInt16.ofNat ((s.length.get c).toNat - if s.lengthEnabled c then 0 else 0) =
      s.length.get c := by
    intro c
    rw [ite_self, Nat.sub_zero, UInt16.ofNat_toNat]
  have hactive : ∀ c, (s.active.get c && !(s.lengthEnabled c &&
      decide (0 < (s.length.get c).toNat ∧ (s.length.get c).toNat ≤ 0))) = s.active.get c := by
    intro c
    rw [decide_eq_false (by omega), Bool.and_false, Bool.not_false, Bool.and_true]
  simp only [clocked, hlength, hactive]
  rfl

/-- One clock, and some more after it, are one clock more. -/
theorem clocked_clockLengths (s : Sound) (n : Nat) :
    s.clockLengths.clocked n = s.clocked (n + 1) := by
  have henabled : ∀ c, s.clockLengths.lengthEnabled c = s.lengthEnabled c := fun _ => rfl
  have hlength : ∀ c, (s.clockLengths.length.get c).toNat - (if s.lengthEnabled c then n else 0) =
      (s.length.get c).toNat - if s.lengthEnabled c then n + 1 else 0 := by
    intro c
    rw [toNat_length_clockLengths]
    split
    · omega
    · rfl
  have hactive : ∀ c, (s.clockLengths.active.get c && !(s.lengthEnabled c &&
      decide (0 < (s.clockLengths.length.get c).toNat ∧
        (s.clockLengths.length.get c).toNat ≤ n))) =
      (s.active.get c && !(s.lengthEnabled c &&
        decide (0 < (s.length.get c).toNat ∧ (s.length.get c).toNat ≤ n + 1))) := by
    intro c
    rw [active_clockLengths, toNat_length_clockLengths]
    generalize (s.length.get c).toNat = left
    cases s.lengthEnabled c with
    | false => simp
    | true =>
      -- The counter runs out with the first clock, or with one of the others.
      have hrunsOut : (0 < left ∧ left ≤ n + 1) ↔ left = 1 ∨ 0 < left - 1 ∧ left - 1 ≤ n := by
        omega
      simp [hrunsOut, Bool.and_assoc]
  simp only [clocked, henabled, hlength, hactive]
  rfl

/-! ### Steps of the frame sequencer -/

/-- How many of `n` steps of the frame sequencer clock the length counters, if the first one has the
number `first`: those with an even number. -/
def clocks (first n : Nat) : Nat :=
  (List.range' first n).countP fun step => step % 2 = 0

/-- The first step comes before all others. -/
lemma clocks_succ (first n : Nat) :
    clocks first (n + 1) = clocks (first + 1) n + if first % 2 = 0 then 1 else 0 := by
  rw [clocks, List.range'_succ, List.countP_cons, clocks]
  simp only [decide_eq_true_eq]

/-- After the eighth step the sequencer begins anew, and nothing changes for the clocks. -/
lemma clocks_mod (first n : Nat) : clocks (first % 8) n = clocks first n := by
  induction n generalizing first with
  | zero => rfl
  | succ n ih =>
    have hparity : first % 8 % 2 = first % 2 := Nat.mod_mod_of_dvd first (by decide)
    have hnext : (first % 8 + 1) % 8 = (first + 1) % 8 := Nat.mod_add_mod first 8 1
    rw [clocks_succ, clocks_succ, hparity, ← ih (first % 8 + 1), hnext, ih]

/-- The number of the next step. -/
lemma toNat_sequence_sequencerStep (s : Sound) :
    s.sequencerStep.sequence.toNat = (s.sequence.toNat + 1) % 8 := by
  have hmask : ∀ k, k &&& 7 = k % 8 := fun k => Nat.and_two_pow_sub_one_eq_mod k 3
  have hnext : ((s.sequence + 1) &&& 7).toNat = (s.sequence.toNat + 1) % 8 := by
    rw [UInt8.toNat_and, UInt8.toNat_add]
    change (s.sequence.toNat + 1) % 256 &&& 7 = _
    rw [hmask]
    exact Nat.mod_mod_of_dvd _ (by decide)
  rw [← hnext, sequencerStep]
  split
  · rfl
  · rfl

/-- One step clocks the length counters if its number is even. -/
lemma clocked_sequencerStep (s : Sound) (n : Nat) :
    s.sequencerStep.clocked n =
      { s.clocked (n + if s.sequence.toNat % 2 = 0 then 1 else 0) with
        sequence := s.sequencerStep.sequence } := by
  unfold sequencerStep
  simp only
  split
  · rw [← clocked_clockLengths]
    rfl
  · rfl

/-- Of a number of steps, those with an even number clock the length counters. -/
theorem sequencerSteps_eq (n : Nat) (hs : s.sequence.toNat < 8) :
    sequencerSteps n s =
      { s.clocked (clocks s.sequence.toNat n) with
        sequence := .ofNat ((s.sequence.toNat + n) % 8) } := by
  induction n generalizing s with
  | zero =>
    rw [Nat.add_zero, Nat.mod_eq_of_lt hs, UInt8.ofNat_toNat]
    exact s.clocked_zero.symm
  | succ n ih =>
    have hnext := s.toNat_sequence_sequencerStep
    have hlt : s.sequencerStep.sequence.toNat < 8 := by
      rw [hnext]
      exact Nat.mod_lt _ (by decide)
    rw [sequencerSteps, ih hlt, clocked_sequencerStep, hnext, clocks_mod, clocks_succ,
      Nat.mod_add_mod, Nat.add_right_comm, Nat.add_assoc]

/-! ### Time -/

/-- What becomes of sound hardware with power when time passes.  The frame sequencer takes a step
every 8192 cycles.  For each of them with an even number, a length counter that is enabled goes down
by one until it is zero, and its channel stops when it gets there; a channel without one plays on.
The registers and the wave memory stay as they are. -/
theorem lengths_expire (hpower : s.power = true) (hsequence : s.sequence.toNat < 8)
    {cycles : UInt32} (hfits : s.phase.toNat + cycles.toNat < 2 ^ 32) :
    let after := s.advance cycles
    let steps := (s.phase.toNat + cycles.toNat) / 8192
    let n := (List.range' s.sequence.toNat steps).countP fun step => step % 2 = 0
    (∀ c, if Byte.bit s.registers[c.triggerRegister] 6 = true then
        (after.length.get c).toNat = (s.length.get c).toNat - n ∧
        (after.active.get c = true ↔ s.active.get c = true ∧
          ¬ (0 < (s.length.get c).toNat ∧ (s.length.get c).toNat ≤ n))
      else after.length.get c = s.length.get c ∧ after.active.get c = s.active.get c) ∧
    after.phase.toNat = (s.phase.toNat + cycles.toNat) % 8192 ∧
    after.sequence.toNat = (s.sequence.toNat + steps) % 8 ∧
    after.registers = s.registers ∧ after.waveRam = s.waveRam ∧ after.power = true := by
  intro after steps n
  have hsum : (s.phase + cycles).toNat = s.phase.toNat + cycles.toNat := by
    rw [UInt32.toNat_add, Nat.mod_eq_of_lt hfits]
  have hsteps : ((s.phase + cycles) / sequencerCycles).toNat = steps := by
    rw [UInt32.toNat_div, hsum]
    rfl
  have hafter : after = { s.clocked n with
      phase := (s.phase + cycles) % sequencerCycles
      sequence := .ofNat ((s.sequence.toNat + steps) % 8) } := by
    change s.advance cycles = _
    rw [advance_of_power hpower, hsteps, sequencerSteps_phase, sequencerSteps_eq steps hsequence]
    rfl
  have hlength : ∀ c, after.length.get c =
      .ofNat ((s.length.get c).toNat - if s.lengthEnabled c then n else 0) := by
    intro c
    rw [hafter]
    exact PerChannel.get_ofFn _ c
  have hactive : ∀ c, after.active.get c = (s.active.get c && !(s.lengthEnabled c &&
      decide (0 < (s.length.get c).toNat ∧ (s.length.get c).toNat ≤ n))) := by
    intro c
    rw [hafter]
    exact PerChannel.get_ofFn _ c
  refine ⟨fun c => ?_, ?_, ?_, ?_, ?_, ?_⟩
  · rw [hlength, hactive]
    split
    · rename_i henabled
      have hon : s.lengthEnabled c = true := henabled
      have hlt : (s.length.get c).toNat < 2 ^ 16 := (s.length.get c).toNat_lt
      rw [hon, if_pos rfl]
      refine ⟨UInt16.toNat_ofNat_of_lt' (Nat.lt_of_le_of_lt (Nat.sub_le _ _) hlt), ?_⟩
      rw [Bool.true_and, Bool.and_eq_true, Bool.not_eq_true', decide_eq_false_iff_not]
    · rename_i hdisabled
      have hoff : s.lengthEnabled c = false := Bool.eq_false_iff.mpr hdisabled
      simp [hoff]
  · rw [hafter, ← hsum]
    exact UInt32.toNat_mod _ _
  · rw [hafter]
    have hlt : (s.sequence.toNat + steps) % 8 < 8 := Nat.mod_lt _ (by decide)
    exact UInt8.toNat_ofNat_of_lt' (Nat.lt_trans hlt (by decide))
  · rw [hafter]
    rfl
  · rw [hafter]
    rfl
  · rw [hafter]
    exact hpower

/-- Sound hardware whose first channel is playing for two more clocks. -/
def counting : Sound :=
  (((cold.write 0x26 0x80).write 0x12 0xF0).write 0x11 0x3E).write 0x14 0xC0

/-- The second clock comes with the third step, and stops the channel. -/
theorem lengths_expire_counting :
    (counting.advance 25000).length.get .square1 = 0 ∧
      (counting.advance 25000).active.get .square1 = false ∧
      (counting.advance 25000).phase = 424 := by
  have hpower : counting.power = true := by decide
  obtain ⟨hchannels, hphase, -⟩ :=
    lengths_expire hpower (by decide : counting.sequence.toNat < 8)
      (by decide : counting.phase.toNat + (25000 : UInt32).toNat < 2 ^ 32)
  have hsquare := hchannels .square1
  rw [if_pos (by decide : Byte.bit counting.registers[Channel.square1.triggerRegister] 6 = true)]
    at hsquare
  obtain ⟨hlength, hactive⟩ := hsquare
  refine ⟨UInt16.toNat_inj.mp (hlength.trans (by decide)), ?_, ?_⟩
  · rw [Bool.eq_false_iff, ne_eq, hactive]
    decide
  · exact UInt32.toNat_inj.mp (hphase.trans (by decide))

end Sound

end Handheld
