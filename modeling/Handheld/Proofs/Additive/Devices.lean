import Handheld.Sound
import Handheld.Timer
import Mathlib.Algebra.Group.Nat.Defs
import Mathlib.Tactic.Lemma

/-!
# Time in two parts: sound and timer

A device counts cycles up to its period, and does something each time that this is over.  It does
not matter whether a stretch of time passes at once or in two parts, as long as the counter, which
has 32 bits, does not overflow: the number of periods that are over is the same
(`toNat_elapsed_div`), and so is what is left of the last one (`elapsed_mod`).

The main statements are `Sound.advance_add` and `Timer.advance_add`.
-/

namespace Handheld

section

variable {phase x y period : UInt32}

/-- Two parts of a stretch of time are over when the whole of it is. -/
lemma toNat_elapsed (h : phase.toNat + (x.toNat + y.toNat) < 2 ^ 32) :
    (phase + (x + y)).toNat = (phase + x).toNat + y.toNat := by
  simp only [UInt32.toNat_add]
  omega

/-- The second part starts with what the first one has left of the last period. -/
lemma toNat_elapsed_rest (h : phase.toNat + (x.toNat + y.toNat) < 2 ^ 32) :
    ((phase + x) % period + y).toNat = (phase + x).toNat % period.toNat + y.toNat := by
  have hle : (phase + x).toNat % period.toNat ≤ (phase + x).toNat := Nat.mod_le _ _
  have hwhole : (phase + x).toNat + y.toNat < 2 ^ 32 := by
    simp only [UInt32.toNat_add]
    omega
  rw [UInt32.toNat_add, UInt32.toNat_mod]
  exact Nat.mod_eq_of_lt (by omega)

/-- The periods that are over after a stretch of time are those of its two parts. -/
theorem toNat_elapsed_div (h : phase.toNat + (x.toNat + y.toNat) < 2 ^ 32) :
    ((phase + (x + y)) / period).toNat =
      ((phase + x) / period).toNat + (((phase + x) % period + y) / period).toNat := by
  rw [UInt32.toNat_div, UInt32.toNat_div, UInt32.toNat_div, toNat_elapsed h, toNat_elapsed_rest h]
  generalize (phase + x).toNat = a
  obtain hzero | hpos := Nat.eq_zero_or_pos period.toNat
  · simp [hzero]
  · have hsplit : a + y.toNat =
        period.toNat * (a / period.toNat) + (a % period.toNat + y.toNat) := by
      have := Nat.div_add_mod a period.toNat
      omega
    rw [hsplit, Nat.mul_add_div hpos]

/-- What is left of the last period after a stretch of time is left after its second part. -/
theorem elapsed_mod (h : phase.toNat + (x.toNat + y.toNat) < 2 ^ 32) :
    (phase + (x + y)) % period = ((phase + x) % period + y) % period := by
  apply UInt32.toNat_inj.mp
  rw [UInt32.toNat_mod, UInt32.toNat_mod, toNat_elapsed h, toNat_elapsed_rest h, Nat.mod_add_mod]

end

/-! ### Sound -/

namespace Sound

/-- Some steps of the frame sequencer, and some more. -/
lemma sequencerSteps_add (n m : Nat) (s : Sound) :
    sequencerSteps (n + m) s = sequencerSteps m (sequencerSteps n s) := by
  induction n generalizing s with
  | zero => rw [Nat.zero_add, sequencerSteps]
  | succ n ih => rw [Nat.succ_add, sequencerSteps, sequencerSteps, ih]

/-- The frame sequencer does not look at the cycles that have passed. -/
lemma sequencerStep_phase (s : Sound) (phase : UInt32) :
    sequencerStep { s with phase := phase } = { s.sequencerStep with phase := phase } := by
  unfold sequencerStep
  simp only
  split
  · rfl
  · rfl

/-- Several steps of the frame sequencer do not look at the cycles that have passed. -/
lemma sequencerSteps_phase (n : Nat) (s : Sound) (phase : UInt32) :
    sequencerSteps n { s with phase := phase } = { sequencerSteps n s with phase := phase } := by
  induction n generalizing s with
  | zero => rfl
  | succ n ih => rw [sequencerSteps, sequencerStep_phase, ih, sequencerSteps]

/-- The frame sequencer touches neither the power switch nor the counter of cycles. -/
lemma sequencerSteps_state (n : Nat) (s : Sound) :
    (sequencerSteps n s).power = s.power ∧ (sequencerSteps n s).phase = s.phase := by
  induction n generalizing s with
  | zero => exact ⟨rfl, rfl⟩
  | succ n ih =>
    have hstep : s.sequencerStep.power = s.power ∧ s.sequencerStep.phase = s.phase := by
      unfold sequencerStep
      simp only
      split
      · exact ⟨rfl, rfl⟩
      · exact ⟨rfl, rfl⟩
    obtain ⟨hpower, hphase⟩ := ih s.sequencerStep
    exact ⟨hpower.trans hstep.1, hphase.trans hstep.2⟩

/-- With power the frame sequencer steps on. -/
lemma advance_of_power {s : Sound} (hpower : s.power = true) (cycles : UInt32) :
    s.advance cycles = sequencerSteps ((s.phase + cycles) / sequencerCycles).toNat
      { s with phase := (s.phase + cycles) % sequencerCycles } := by
  rw [advance, if_pos hpower]

/-- Without power nothing happens. -/
lemma advance_of_not_power {s : Sound} (hpower : ¬ s.power = true) (cycles : UInt32) :
    s.advance cycles = s := by
  rw [advance, if_neg hpower]

/-- The sound hardware does the same in two parts. -/
theorem advance_add (s : Sound) (x y : UInt32)
    (hfits : s.power = true → s.phase.toNat + (x.toNat + y.toNat) < 2 ^ 32) :
    s.advance (x + y) = (s.advance x).advance y := by
  by_cases hpower : s.power = true
  · have h := hfits hpower
    have hfirst := advance_of_power hpower x
    obtain ⟨hpower', hphase⟩ := sequencerSteps_state ((s.phase + x) / sequencerCycles).toNat
      { s with phase := (s.phase + x) % sequencerCycles }
    rw [← hfirst] at hpower' hphase
    rw [advance_of_power hpower, advance_of_power (hpower'.trans hpower), hphase,
      toNat_elapsed_div h, elapsed_mod h, sequencerSteps_add, hfirst, ← sequencerSteps_phase]
  · rw [advance_of_not_power hpower, advance_of_not_power hpower, advance_of_not_power hpower]

end Sound

/-! ### The timer -/

namespace Timer

/-- An earlier overflow stays, and changes nothing else. -/
lemma count_raised (tma : UInt8) (n : Nat) (tima : UInt8) (raised : Bool) :
    count tma n tima raised =
      ((count tma n tima false).1, raised || (count tma n tima false).2) := by
  induction n generalizing tima raised with
  | zero => simp [count]
  | succ n ih =>
    unfold count
    split
    · rw [ih _ true]
      simp
    · exact ih _ raised

/-- The counter counts on. -/
lemma count_add (tma : UInt8) (n m : Nat) (tima : UInt8) (raised : Bool) :
    count tma (n + m) tima raised =
      count tma m (count tma n tima raised).1 (count tma n tima raised).2 := by
  induction n generalizing tima raised with
  | zero => rw [Nat.zero_add, count]
  | succ n ih =>
    rw [Nat.succ_add, count, count]
    split
    · exact ih _ true
    · exact ih _ raised

/-- A timer that is on counts. -/
lemma advance_of_running {t : Timer} (hrunning : t.running = true) (cycles : UInt32) :
    t.advance cycles =
      ({ t with
        tima := (count t.tma ((t.phase + cycles) / t.period).toNat t.tima false).1
        divider := t.divider + cycles.toUInt16
        phase := (t.phase + cycles) % t.period },
      (count t.tma ((t.phase + cycles) / t.period).toNat t.tima false).2) := by
  have hrunning' : ({ t with divider := t.divider + cycles.toUInt16 } : Timer).running = true :=
    hrunning
  simp only [advance, hrunning', if_true]
  rfl

/-- A timer that is off only divides the clock. -/
lemma advance_of_not_running {t : Timer} (hrunning : ¬ t.running = true) (cycles : UInt32) :
    t.advance cycles = ({ t with divider := t.divider + cycles.toUInt16 }, false) :=
  if_neg hrunning

/-- The timer does the same in two parts, and overflows if it does in one of them. -/
theorem advance_add (t : Timer) (x y : UInt32)
    (hfits : t.running = true → t.phase.toNat + (x.toNat + y.toNat) < 2 ^ 32) :
    t.advance (x + y) =
      (((t.advance x).1.advance y).1, (t.advance x).2 || ((t.advance x).1.advance y).2) := by
  have hdivider : t.divider + (x + y).toUInt16 = t.divider + x.toUInt16 + y.toUInt16 := by
    rw [UInt32.toUInt16_add, UInt16.add_assoc]
  by_cases hrunning : t.running = true
  · have h := hfits hrunning
    have hfirst := advance_of_running hrunning x
    have hrunning' : (t.advance x).1.running = true := by
      rw [hfirst]
      exact hrunning
    have hperiod : (t.advance x).1.period = t.period := by
      rw [hfirst]
      rfl
    rw [advance_of_running hrunning, advance_of_running hrunning', hperiod, hfirst]
    simp only
    rw [toNat_elapsed_div h, elapsed_mod h, count_add, count_raised, hdivider]
  · have hrunning' : ¬ (t.advance x).1.running = true := by
      rw [advance_of_not_running hrunning]
      exact hrunning
    rw [advance_of_not_running hrunning, advance_of_not_running hrunning',
      advance_of_not_running hrunning, hdivider]
    rfl

end Timer

end Handheld
