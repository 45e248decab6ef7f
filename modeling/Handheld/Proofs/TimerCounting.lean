import Handheld.Proofs.Additive.Devices
import Handheld.Proofs.StatusInterrupt

/-!
# The timer in closed form

However much time passes at once, the timer counts period by period, and starts again from its
modulo register after each overflow.  `Timer.counted` is the value that this leaves in the counter,
without a loop: up to the first overflow it grows, and from then on it goes round in the values from
the modulo register up to 255.  `Timer.count_eq` is the induction over the periods.

`Timer.Reached` holds of the timers that writes and time lead to.  They are well-formed, so that
less than a period has passed since the last count, and `Timer.counts_periods` says what becomes of
such a timer when time passes; the overflow reaches the interrupt controller (`Bus.timer_advance`).
-/

namespace Handheld

namespace Timer

variable {t : Timer}

/-! ### Counting -/

/-- The value of a counter after `n` counts, if it starts again from `tma` after each overflow. -/
def counted (tima tma n : Nat) : Nat :=
  if n < 256 - tima then tima + n else tma + (n - (256 - tima)) % (256 - tma)

/-- Counting leaves this value, and overflows as soon as there are enough counts. -/
theorem count_eq (tma : UInt8) (n : Nat) (tima : UInt8) (raised : Bool) :
    (count tma n tima raised).1.toNat = counted tima.toNat tma.toNat n ∧
      ((count tma n tima raised).2 = true ↔ raised = true ∨ 256 - tima.toNat ≤ n) := by
  induction n generalizing tima raised with
  | zero =>
    have hlt : tima.toNat < 256 := tima.toNat_lt
    refine ⟨?_, ?_⟩
    · rw [count, counted, if_pos (by omega), Nat.add_zero]
    · rw [count, or_iff_left (by omega)]
  | succ n ih =>
    have hlt : tima.toNat < 256 := tima.toNat_lt
    have hmodulo : tma.toNat < 256 := tma.toNat_lt
    unfold count
    by_cases hlast : tima = 0xFF
    · -- The overflow: from here on the counter goes round.
      obtain ⟨hvalue, hraised⟩ := ih tma true
      have htima : tima.toNat = 255 := congrArg UInt8.toNat hlast
      rw [if_pos hlast, hvalue, hraised, htima]
      refine ⟨?_, iff_of_true (.inl rfl) (.inr (by omega))⟩
      rw [counted, counted, if_neg (by omega : ¬ n + 1 < 256 - 255), Nat.add_sub_cancel]
      by_cases hfirst : n < 256 - tma.toNat
      · rw [if_pos hfirst, Nat.mod_eq_of_lt hfirst]
      · rw [if_neg hfirst, ← Nat.mod_eq_sub_mod (Nat.not_lt.mp hfirst)]
    · obtain ⟨hvalue, hraised⟩ := ih (tima + 1) raised
      have hne : tima.toNat ≠ 255 := fun h => hlast (UInt8.toNat_inj.mp h)
      have hsucc : (tima + 1).toNat = tima.toNat + 1 := by
        rw [UInt8.toNat_add]
        exact Nat.mod_eq_of_lt (by change tima.toNat + 1 < 256; omega)
      have hroom : 256 - tima.toNat = 256 - (tima.toNat + 1) + 1 := by omega
      rw [if_neg hlast, hvalue, hraised, hsucc, counted, counted, hroom]
      refine ⟨?_, or_congr_right Nat.succ_le_succ_iff.symm⟩
      simp only [Nat.add_lt_add_iff_right, Nat.add_sub_add_right]
      split
      · omega
      · rfl

/-! ### Time -/

/-- All cycles go into the divider, and no register that holds a choice changes. -/
lemma divider_advance (t : Timer) (cycles : UInt32) :
    (t.advance cycles).1.divider.toNat = (t.divider.toNat + cycles.toNat) % 65536 ∧
      (t.advance cycles).1.tma = t.tma ∧ (t.advance cycles).1.tac = t.tac := by
  have hdivider : (t.divider + cycles.toUInt16).toNat =
      (t.divider.toNat + cycles.toNat) % 65536 := by
    rw [UInt16.toNat_add, UInt32.toNat_toUInt16]
    exact Nat.add_mod_mod _ _ _
  by_cases hrunning : t.running = true
  · rw [advance_of_running hrunning]
    exact ⟨hdivider, rfl, rfl⟩
  · rw [advance_of_not_running hrunning]
    exact ⟨hdivider, rfl, rfl⟩

/-- A timer that is on counts the periods that are over. -/
lemma counted_advance (hrunning : t.running = true) {cycles : UInt32}
    (hfits : t.phase.toNat + cycles.toNat < 2 ^ 32) :
    let n := (t.phase.toNat + cycles.toNat) / t.period.toNat
    (t.advance cycles).1.phase.toNat = (t.phase.toNat + cycles.toNat) % t.period.toNat ∧
      (t.advance cycles).1.tima.toNat = counted t.tima.toNat t.tma.toNat n ∧
      ((t.advance cycles).2 = true ↔ 256 - t.tima.toNat ≤ n) := by
  intro n
  have hsum : (t.phase + cycles).toNat = t.phase.toNat + cycles.toNat := by
    rw [UInt32.toNat_add, Nat.mod_eq_of_lt hfits]
  have hperiods : ((t.phase + cycles) / t.period).toNat = n := by
    rw [UInt32.toNat_div, hsum]
  obtain ⟨hvalue, hraised⟩ := count_eq t.tma n t.tima false
  rw [advance_of_running hrunning, hperiods]
  refine ⟨?_, hvalue, hraised.trans (or_iff_right Bool.false_ne_true)⟩
  rw [UInt32.toNat_mod, hsum]

/-- The timers that writes and time lead to. -/
inductive Reached : Timer → Prop
  | fresh : Reached {}
  | write {t : Timer} (r v : UInt8) : Reached t → Reached (t.write r v)
  | advance {t : Timer} (cycles : UInt32) : Reached t → Reached (t.advance cycles).1

/-- The timers that writes and time lead to are well-formed: a write that changes the period begins
a new one. -/
lemma Reached.wellFormed (ht : t.Reached) : t.WellFormed := by
  induction ht with
  | fresh => exact wellFormed_default
  | write r v _ ih => exact ih.write r v
  | advance cycles _ ih => exact ih.advance cycles

end Timer

/-- On the bus the timer keeps its own time, and its overflow is added to the requests. -/
theorem Bus.timer_advance {η : Type} [Host η] (b : Bus) (cycles : UInt32) (host : η) :
    (b.advance cycles host).bus.timer = (b.timer.advance cycles).1 ∧
      (b.advance cycles host).bus.interrupts.requested.timer =
        (b.interrupts.requested.timer || (b.timer.advance cycles).2) := by
  have htimer : Source.timer ≠ .stat ∧ Source.timer ≠ .vblank := by decide
  obtain ⟨ram, dma, h⟩ := b.advance_eq cycles host
  exact ⟨congrArg timer h, b.requested_advance htimer.1 htimer.2 cycles host⟩

namespace Timer

/-- What becomes of a timer in use when time passes.  Less than a period of the counter is always
left over.  The divider takes all cycles, modulo `2 ^ 16`; if the counter is on, it counts the
periods that are over, starts again from the modulo register after each overflow, and asks for its
interrupt if there is one; nothing else changes. -/
theorem counts_periods {t : Timer} (ht : t.Reached) (cycles : UInt32) :
    let after := (t.advance cycles).1
    let overflowed := (t.advance cycles).2
    let n := (t.phase.toNat + cycles.toNat) / t.period.toNat
    t.phase < t.period ∧ after.divider.toNat = (t.divider.toNat + cycles.toNat) % 65536 ∧
    after.tma = t.tma ∧ after.tac = t.tac ∧
    (Byte.bit t.tac 2 = true → t.phase.toNat + cycles.toNat < 2 ^ 32 →
      after.phase.toNat = (t.phase.toNat + cycles.toNat) % t.period.toNat ∧
      after.tima.toNat =
        (if n < 256 - t.tima.toNat then t.tima.toNat + n
        else t.tma.toNat + (n - (256 - t.tima.toNat)) % (256 - t.tma.toNat)) ∧
      (overflowed = true ↔ 256 - t.tima.toNat ≤ n)) ∧
    (Byte.bit t.tac 2 = false →
      after.phase = t.phase ∧ after.tima = t.tima ∧ overflowed = false) ∧
    ∀ {η : Type} [Host η] (b : Bus) (host : η), b.timer = t →
      (b.advance cycles host).bus.timer = after ∧
      (b.advance cycles host).bus.interrupts.requested.timer =
        (b.interrupts.requested.timer || overflowed) := by
  intro after overflowed n
  obtain ⟨hdivider, htma, htac⟩ := t.divider_advance cycles
  refine ⟨ht.wellFormed.phase, hdivider, htma, htac, fun hon hfits => ?_, fun hoff => ?_, ?_⟩
  · exact counted_advance hon hfits
  · have hstays : t.advance cycles = _ :=
      advance_of_not_running (fun hon => absurd (hon.symm.trans hoff) (by decide)) cycles
    refine ⟨?_, ?_, ?_⟩
    · exact congrArg (·.1.phase) hstays
    · exact congrArg (·.1.tima) hstays
    · exact congrArg (·.2) hstays
  · rintro η _ b host rfl
    exact b.timer_advance cycles host

/-- A timer that counts every 16 cycles, from `0xFE` on and again from `0xF0`. -/
def reloading : Timer := ((({} : Timer).write 0x06 0xF0).write 0x05 0xFE).write 0x07 0x05

/-- In 320 cycles it overflows twice. -/
theorem counts_periods_reloading :
    Byte.bit reloading.tac 2 = true ∧
      reloading.phase.toNat + (320 : UInt32).toNat < 2 ^ 32 ∧
      (reloading.advance 320).1.tima.toNat = 0xF2 ∧ (reloading.advance 320).2 = true := by
  have hreached : reloading.Reached := ((Reached.fresh.write 0x06 0xF0).write 0x05 0xFE).write _ _
  have hon : Byte.bit reloading.tac 2 = true := by decide
  have hfits : reloading.phase.toNat + (320 : UInt32).toNat < 2 ^ 32 := by decide
  obtain ⟨-, -, -, -, hcounts, -⟩ := counts_periods hreached 320
  obtain ⟨-, htima, hoverflowed⟩ := hcounts hon hfits
  exact ⟨hon, hfits, htima, hoverflowed.mpr (by decide)⟩

end Timer

end Handheld
