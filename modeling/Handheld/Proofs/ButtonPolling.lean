import Handheld.Proofs.Running
import Handheld.Proofs.StatusInterrupt

/-!
# Looking at the buttons once per period

The joypad asks the host for the buttons each time that its period is over.  `Joypad.answers` is the
list of what the host says when it is asked a number of times, and `Buttons.Falls` says of the
buttons before and after one question that a line falls.  It speaks about the pressed buttons and
the selected groups, and not about the nibbles that the joypad computes (`Joypad.latch_snd_iff`).
By induction over the questions, a press is reported if there is such a pair among the buttons that
were seen one after the other (`Joypad.poll_snd_iff`).

The counter of the cycles has 32 bits, and the period can be almost as long.  In
`Joypad.polls_periods`, which is the main statement, the questions come in time as long as the
counter has room for the cycles; if it has none, the program crashes, although a period is over.
No other counter of a console ever runs over (`Machine.WellFormed.crashed_step_iff`), and with a
period that leaves room for the cost of a step the console never crashes
(`Console.Loaded.not_crashed_stepped`).
-/

namespace Handheld

namespace Buttons

/-- Whether the buttons pull a line down.  Each of the four lines belongs to a direction and to one
of the other buttons, and is low while one of the two is pressed and its group selected. -/
def pulls (b : Buttons) (select : UInt8) (line : Nat) : Bool :=
  !Byte.bit select 4 && Byte.bit b.bits line || !Byte.bit select 5 && Byte.bit b.bits (line + 4)

/-- Whether a line falls when the buttons change. -/
def Falls (select : UInt8) (before after : Buttons) : Prop :=
  ∃ line < 4, before.pulls select line = false ∧ after.pulls select line = true

/-- The directions are in the lower half of the byte, and a pressed one is a zero in the nibble. -/
lemma bit_directionNibble (b : Buttons) {i : Nat} (hi : i < 8) :
    Byte.bit b.directionNibble i = (decide (i < 4) && !Byte.bit b.bits i) := by
  rw [directionNibble, Byte.bit_and, Byte.bit_not _ hi, Byte.bit_nibble, Bool.and_comm]

/-- The buttons that are no directions are in the upper half of the byte, and a pressed one is a
zero in the nibble. -/
lemma bit_actionNibble (b : Buttons) {i : Nat} (hi : i < 8) :
    Byte.bit b.actionNibble i = (decide (i < 4) && !Byte.bit b.bits (i + 4)) := by
  rw [actionNibble, Byte.bit_and, Byte.bit_not _ hi, Byte.bit_shiftRight_four, Byte.bit_nibble,
    Bool.and_comm]

end Buttons

namespace Joypad

open Buttons

/-! ### Lines -/

/-- There are four lines, and one is low while the buttons pull it down. -/
lemma bit_lines (j : Joypad) {i : Nat} (hi : i < 8) :
    Byte.bit j.lines i = (decide (i < 4) && !j.buttons.pulls j.select i) := by
  have hgroup : ∀ (deselected pressed : Bool) (nibble : UInt8),
      Byte.bit nibble i = (decide (i < 4) && !pressed) →
      Byte.bit (if deselected then 0x0F else nibble) i =
        (decide (i < 4) && !(!deselected && pressed)) := by
    intro deselected pressed nibble hnibble
    cases deselected with
    | false => exact hnibble
    | true => exact (Byte.bit_nibble i).trans (Bool.and_true _).symm
  rw [lines, Byte.bit_and, hgroup _ _ _ (bit_directionNibble _ hi),
    hgroup _ _ _ (bit_actionNibble _ hi), pulls, Bool.not_or]
  cases decide (i < 4) with
  | false => rfl
  | true => rw [Bool.true_and, Bool.true_and, Bool.true_and]

/-- New buttons are reported if a line falls. -/
theorem latch_snd_iff (j : Joypad) (b : Buttons) :
    (j.latch b).2 = true ↔ Falls j.select j.buttons b := by
  have hfell : (j.latch b).2 = true ↔ ∃ i < 8,
      Byte.bit (j.lines &&& ~~~(j.latch b).1.lines) i = true :=
    bne_iff_ne.trans (Byte.ne_zero_iff _)
  have hbit : ∀ i < 8, (Byte.bit (j.lines &&& ~~~(j.latch b).1.lines) i = true ↔
      i < 4 ∧ j.buttons.pulls j.select i = false ∧ b.pulls j.select i = true) := by
    intro i hi
    rw [Byte.bit_and, Byte.bit_not _ hi, bit_lines _ hi, bit_lines _ hi]
    by_cases hline : i < 4
    · simp [hline, latch]
    · simp [hline]
  rw [hfell]
  refine ⟨?_, ?_⟩
  · rintro ⟨i, hi, hline⟩
    exact ⟨i, (hbit i hi).mp hline⟩
  · rintro ⟨i, hi, hline⟩
    have hi8 : i < 8 := Nat.lt_trans hi (by decide)
    exact ⟨i, hi8, (hbit i hi8).mpr ⟨hi, hline⟩⟩

/-! ### Questions -/

variable {η : Type} [Host η]

/-- What a host says when it is asked for the buttons `n` times. -/
def answers : Nat → η → List Buttons
  | 0, _ => []
  | n + 1, host => (Host.pollButtons host).1 :: answers n (Host.pollButtons host).2

/-- After some questions the joypad has the buttons of the last answer. -/
lemma poll_fst_eq (n : Nat) (j : Joypad) (host : η) (fell : Bool) :
    (poll n j host fell).1 = { j with buttons := (answers n host).getLastD j.buttons } := by
  induction n generalizing j host fell with
  | zero => rfl
  | succ n ih =>
    rw [answers, List.getLastD_cons]
    exact ih (j.latch (Host.pollButtons host).1).1 _ _

/-- A press is reported if a line falls between two answers, or at the first one. -/
theorem poll_snd_iff (n : Nat) (j : Joypad) (host : η) (fell : Bool) :
    (poll n j host fell).2.2 = true ↔ fell = true ∨
      ∃ p ∈ (j.buttons :: answers n host).zip (answers n host), Falls j.select p.1 p.2 := by
  induction n generalizing j host fell with
  | zero => simp [poll, answers]
  | succ n ih =>
    have hnext := ih (j.latch (Host.pollButtons host).1).1 (Host.pollButtons host).2
      (fell || (j.latch (Host.pollButtons host).1).2)
    rw [Bool.or_eq_true, latch_snd_iff, or_assoc] at hnext
    rw [answers, List.zip_cons_cons, List.exists_mem_cons_iff]
    exact hnext

/-- With nothing attached, no button is ever pressed. -/
lemma answers_solitude {n : Nat} {host : Solitude} {b : Buttons} (hb : b ∈ answers n host) :
    b = .none := by
  induction n generalizing host with
  | zero => cases hb
  | succ n ih =>
    rcases List.mem_cons.mp hb with rfl | hrest
    · rfl
    · exact ih hrest

/-- With nothing attached, no press is reported. -/
lemma advance_solitude (j : Joypad) (cycles : UInt32) (host : Solitude) :
    (j.advance cycles host).2.2 = false := by
  rw [← Bool.not_eq_true, advance, poll_snd_iff]
  rintro (hfell | ⟨⟨before, after⟩, hp, line, -, -, hlow⟩)
  · cases hfell
  · obtain rfl := answers_solitude (List.of_mem_zip hp).2
    simp [pulls, Buttons.none, Byte.bit] at hlow

/-- Each question is asked once. -/
lemma calls_poll (n : Nat) (j : Joypad) (o : Observed η) (fell : Bool) :
    (poll n j o fell).2.1.calls = o.calls ++ List.replicate n .buttons := by
  induction n generalizing j o fell with
  | zero => exact (List.append_nil _).symm
  | succ n ih =>
    rw [List.replicate_succ, ← List.singleton_append, ← List.append_assoc]
    exact ih (j.latch (Host.pollButtons o).1).1 (Host.pollButtons o).2 _

/-! ### Time -/

/-- As long as the counter has room for the cycles, there is a question for each period that is
over. -/
lemma advance_of_fits (j : Joypad) {cycles : UInt32} (host : η) (hfits : j.Fits cycles.toNat) :
    (j.advance cycles host).1.phase.toNat = (j.phase.toNat + cycles.toNat) % j.period.toNat ∧
      j.advance cycles host = poll ((j.phase.toNat + cycles.toNat) / j.period.toNat)
        { j with phase := (j.advance cycles host).1.phase } host false := by
  have hsum : (j.phase + cycles).toNat = j.phase.toNat + cycles.toNat := by
    rw [UInt32.toNat_add, Nat.mod_eq_of_lt hfits]
  obtain ⟨-, hphase⟩ := j.advance_counter cycles host
  rw [hphase, ← hsum]
  refine ⟨UInt32.toNat_mod _ _, ?_⟩
  rw [advance, UInt32.toNat_div]

/-- Whenever the counter has no room for the cycles, a period is over. -/
lemma div_period_pos {j : Joypad} (hphase : j.phase < j.period) {cycles : Nat}
    (hover : ¬ j.Fits cycles) : 0 < (j.phase.toNat + cycles) / j.period.toNat := by
  have hperiod : j.period.toNat < 2 ^ 32 := j.period.toNat_lt
  have hpos : 0 < j.period.toNat :=
    Nat.lt_of_le_of_lt (Nat.zero_le _) (UInt32.lt_iff_toNat_lt.mp hphase)
  exact Nat.div_pos (Nat.le_trans (Nat.le_of_lt hperiod) (Nat.le_of_not_lt hover)) hpos

end Joypad

/-- On the bus the joypad keeps its own time, and what it reports is added to the requests. -/
lemma Bus.joypad_advance {η : Type} [Host η] (b : Bus) (cycles : UInt32) (host : η) :
    (b.advance cycles host).bus.joypad = (b.joypad.advance cycles host).1 ∧
      (b.advance cycles host).pressed = (b.joypad.advance cycles host).2.2 ∧
      (b.advance cycles host).bus.interrupts.requested.joypad =
        (b.interrupts.requested.joypad || (b.joypad.advance cycles host).2.2) := by
  have hjoypad : Source.joypad ≠ .stat ∧ Source.joypad ≠ .vblank := by decide
  obtain ⟨ram, dma, h⟩ := b.advance_eq cycles host
  exact ⟨congrArg joypad h, rfl, b.requested_advance hjoypad.1 hjoypad.2 cycles host⟩

namespace Joypad

open Buttons (Falls)

/-- What becomes of a joypad when time passes, whose counter is below its period.  As long as the
counter has room for the cycles, the host is asked once for each period that is over, the joypad
takes over its answers one after the other, and a press is reported if a line of a selected group
falls at one of them.  If the counter has no room, a period is over, but the program crashes. -/
theorem polls_periods {η : Type} [Host η] {j : Joypad} (hphase : j.phase < j.period)
    (cycles : UInt32) (o : Observed η) :
    let total := j.phase.toNat + cycles.toNat
    let n := total / j.period.toNat
    let seen := answers n o
    (total < 2 ^ 32 → ∃ after, j.advance? cycles o = some after ∧
      after.2.1.calls = o.calls ++ List.replicate n .buttons ∧
      after.1.phase.toNat = total % j.period.toNat ∧
      after.1 = { j with phase := after.1.phase, buttons := seen.getLastD j.buttons } ∧
      (after.2.2 = true ↔ ∃ p ∈ (j.buttons :: seen).zip seen, Falls j.select p.1 p.2) ∧
      ∀ b : Bus, b.joypad = j →
        (b.advance cycles o).bus.joypad = after.1 ∧
        (b.advance cycles o).pressed = after.2.2 ∧
        (b.advance cycles o).bus.interrupts.requested.joypad =
          (b.interrupts.requested.joypad || after.2.2)) ∧
    (2 ^ 32 ≤ total → 0 < n ∧ j.advance? cycles o = none ∧
      ∀ b : Bus, b.joypad = j → b.advance? cycles o = none) := by
  intro total n seen
  refine ⟨fun hfits => ⟨j.advance cycles o, if_pos hfits, ?_⟩, fun hover => ?_⟩
  · obtain ⟨hleft, hafter⟩ := j.advance_of_fits o hfits
    have hcalls := calls_poll n { j with phase := (j.advance cycles o).1.phase } o false
    have hjoypad := poll_fst_eq n { j with phase := (j.advance cycles o).1.phase } o false
    have hpressed := poll_snd_iff n { j with phase := (j.advance cycles o).1.phase } o false
    rw [← hafter] at hcalls hjoypad hpressed
    refine ⟨hcalls, hleft, hjoypad, hpressed.trans (or_iff_right Bool.false_ne_true), ?_⟩
    rintro b rfl
    exact b.joypad_advance cycles o
  · have hroom : ¬ j.Fits cycles.toNat := Nat.not_lt.mpr hover
    refine ⟨div_period_pos hphase hroom, if_neg hroom, ?_⟩
    rintro b rfl
    exact if_neg fun hb => hroom hb.joypad

/-- A player who presses the first direction after a number of questions. -/
def pressAfter (n : Nat) : Observed Scripted where
  host := {
    buttons := fun heard => ⟨if heard.length < n then 0 else 1⟩
    bytes := fun _ v => v
    goesOn := fun _ => true }

/-- A joypad with the directions selected that asks once in 16 cycles. -/
def directions : Joypad := (every 16).write 0x20

/-- In 40 cycles it asks twice, and hears of the press. -/
theorem polls_periods_directions : directions.phase < directions.period ∧
    directions.phase.toNat + (40 : UInt32).toNat < 2 ^ 32 ∧
    ∃ after, directions.advance? 40 (pressAfter 1) = some after ∧
      after.2.1.calls = [.buttons, .buttons] ∧ after.1.phase.toNat = 8 ∧ after.2.2 = true := by
  have hphase : directions.phase < directions.period := by decide
  have htotal : directions.phase.toNat + (40 : UInt32).toNat < 2 ^ 32 := by decide
  obtain ⟨hfits, -⟩ := polls_periods hphase 40 (pressAfter 1)
  obtain ⟨after, hafter, hcalls, hleft, -, hpressed, -⟩ := hfits htotal
  have hfalls : Falls directions.select ⟨0⟩ ⟨1⟩ := ⟨0, by decide⟩
  exact ⟨hphase, htotal, after, hafter, hcalls, hleft,
    hpressed.mpr ⟨(⟨0⟩, ⟨1⟩), by decide, hfalls⟩⟩

/-- A configuration may ask for a period of `2 ^ 32 - 1` cycles, and a joypad may then be three
cycles short of the end of a period.  After four more cycles the player, who is pressing a selected
direction, should have been asked, but the counter has no room for them. -/
theorem lost_question : ∃ c, Config.ofJson? "[true,false,4294967295]" = .ok c ∧
    let loaded := record.load [0xFC, 0xFF, 0xFF, 0xFF, 0x20, 0x00] (.every c.pollCycles)
    let j := loaded.state
    let o := pressAfter 0
    loaded.outcome = .ok [] ∧ j.phase < j.period ∧
    (j.phase.toNat + (4 : UInt32).toNat) / j.period.toNat = 1 ∧
    (j.phase.toNat + (4 : UInt32).toNat) % j.period.toNat = 1 ∧
    Falls j.select j.buttons (Host.pollButtons o).1 ∧ j.advance? 4 o = none := by
  have hfalls : Falls 0x20 ⟨0⟩ ⟨1⟩ := ⟨0, by decide⟩
  exact ⟨{ pollCycles := 0xFFFFFFFF }, by decide +kernel, rfl, by decide, by decide, by decide,
    hfalls, rfl⟩

end Joypad

/-! ### Crashes -/

/-- To note a diagnostic is no crash. -/
lemma Journal.crashed_note (j : Journal) (d : Diagnostic) : (j.note d).crashed = j.crashed := by
  unfold note
  split
  · rfl
  · rfl

/-- A processor notes what it does, and does not crash. -/
lemma Core.crashed_macroStep (s : Core ReportingBus) :
    s.macroStep.memory.journal.crashed = s.memory.journal.crashed := by
  have hnote : ∀ (j : Journal) (d : Option Diagnostic), (j.note? d).crashed = j.crashed := by
    intro j d
    cases d with
    | none => rfl
    | some d => exact j.crashed_note d
  have hclosed : Memory.Closed fun m : ReportingBus =>
      m.journal.crashed = s.memory.journal.crashed :=
    { read := fun _ h => (hnote _ _).trans h
      write := fun _ _ h => (hnote _ _).trans h
      report := fun _ h => (Journal.crashed_note _ _).trans h
      acknowledge := fun _ h => h }
  exact hclosed.step (hclosed.service rfl)

/-- Of all counters of a bus, only that of the joypad can run over in the time of a step; the others
start anew long before. -/
lemma Bus.WellFormed.fits_iff {last : UInt8} {b b₀ : Bus}
    (hb : b.WellFormed (Display.Within last) b₀) {cycles : Nat} (hcycles : cycles ≤ 48) :
    b.Fits cycles ↔ b.joypad.Fits cycles := by
  have hsound : b.sound.phase.toNat < 8192 := UInt32.lt_iff_toNat_lt.mp hb.sound.phase
  have hserial : b.serial.phase.toNat < 512 := UInt32.lt_iff_toNat_lt.mp hb.serial.phase
  have htimer : b.timer.phase.toNat < b.timer.period.toNat :=
    UInt32.lt_iff_toNat_lt.mp hb.timer.phase
  have hperiod : b.timer.period.toNat ≤ 1024 := by
    unfold Timer.period
    split
    all_goals decide
  have hdisplay : b.display.dots.toNat < b.display.mode.duration.toNat :=
    UInt32.lt_iff_toNat_lt.mp hb.display.dots
  have hduration : b.display.mode.duration.toNat ≤ 456 := by
    cases b.display.mode <;> decide
  have hsize : 2 ^ 31 < UInt32.size := by decide
  exact ⟨Fits.joypad, fun hroom => ⟨fun _ => by omega, hroom, fun _ => by omega,
    fun _ => by omega, fun _ => by omega⟩⟩

namespace Machine

variable {η : Type} [Host η] {last : UInt8} {m m₀ : Machine}

/-- A step crashes if the bus that the processor leaves behind has no room for its cost. -/
lemma crashed_step (m : Machine) (host : η) (journal : Journal) :
    (m.step host journal).journal.crashed =
      (journal.crashed ||
        !decide ((m.executed journal).Fits (m.core journal).macroCost.toNat)) := by
  have hnoted := Core.crashed_macroStep (m.core journal)
  change (Journal.crashed _ || _) = _
  exact congrArg (· || _) hnoted

/-- In a console, a step crashes if the counter of the joypad has no room for its cost, and
otherwise it does not. -/
theorem WellFormed.crashed_step_iff (hlast : Display.lastLine ≤ last)
    (hm : m.WellFormed (Display.Within last) m₀) (host : η) (journal : Journal) :
    (m.step host journal).journal.crashed = true ↔ journal.crashed = true ∨
      2 ^ 32 ≤ (m.executed journal).joypad.phase.toNat + (m.step host journal).cycles.toNat := by
  have hcost : (m.core journal).macroCost.toNat ≤ 48 :=
    UInt32.le_iff_toNat_le.mp (Core.macroCost_le _)
  obtain ⟨hcycles, -⟩ := m.step_eq host journal
  rw [crashed_step, Bool.or_eq_true, Bool.not_eq_true', decide_eq_false_iff_not,
    (hm.executed (Display.lasting_within hlast) journal).fits_iff hcost, hcycles]
  exact or_congr_right Nat.not_lt

/-- In a console, a step does not crash if the period of the joypad leaves room for its cost. -/
lemma WellFormed.not_crashed_step (hlast : Display.lastLine ≤ last)
    (hm : m.WellFormed (Display.Within last) m₀)
    (hperiod : m₀.bus.joypad.period.toNat ≤ 2 ^ 32 - 48) (host : η) {journal : Journal}
    (hjournal : journal.crashed = false) : (m.step host journal).journal.crashed = false := by
  have hjoypad := (hm.executed (Display.lasting_within hlast) journal).joypad
  have hphase : (m.executed journal).joypad.phase.toNat < m₀.bus.joypad.period.toNat := by
    rw [← hjoypad.period]
    exact UInt32.lt_iff_toNat_lt.mp hjoypad.phase
  have hcost : (m.step host journal).cycles.toNat ≤ 48 := by
    obtain ⟨hcycles, -⟩ := m.step_eq host journal
    rw [hcycles]
    exact UInt32.le_iff_toNat_le.mp (Core.macroCost_le _)
  rw [← Bool.not_eq_true, hm.crashed_step_iff hlast, hjournal]
  rintro (hcrashed | hover)
  · cases hcrashed
  · omega

end Machine

namespace Console

variable {η : Type} [Host η] {c : Console η} {config : Config} {m₀ : Machine}

/-- Steps do not crash if the period leaves room for their costs. -/
theorem Holds.not_crashed_stepped {last : UInt8} (hlast : Display.lastLine ≤ last)
    (hc : c.Holds (Display.Within last) config m₀)
    (hperiod : m₀.bus.joypad.period.toNat ≤ 2 ^ 32 - 48) (hjournal : c.journal.crashed = false)
    (n : Nat) : (Console.stepped n c).journal.crashed = false := by
  induction n generalizing c with
  | zero => exact hjournal
  | succ n ih =>
    obtain ⟨m, host, disk, journal, rfl, hm⟩ := hc.eq_mk
    exact ih (hc.step (Display.lasting_within hlast))
      (hm.not_crashed_step hlast hperiod host hjournal)

/-- If the period leaves room for the cost of a step, the console never crashes. -/
theorem Loaded.not_crashed_stepped (hc : Loaded c)
    (hperiod : c.config.pollCycles.toNat ≤ 2 ^ 32 - 48) (hjournal : c.journal.crashed = false)
    (n : Nat) : (stepped n c).journal.crashed = false := by
  have hlast : Display.lastLine ≤ Display.lastLine + 1 := by decide
  obtain ⟨image, boot, config, m₀, hbuild, hholds⟩ :=
    hc.built (Display.lasting_within hlast) fun _ hd => hd.within_succ
  obtain ⟨-, header, -, rfl⟩ := Machine.build_eq_ok_iff.mp hbuild
  obtain rfl := hholds.config
  refine hholds.not_crashed_stepped hlast ?_ hjournal n
  -- A configuration without a period is taken for one with a question in each cycle.
  change (if c.config.pollCycles = 0 then 1 else c.config.pollCycles).toNat ≤ _
  split
  · decide
  · exact hperiod

end Console

end Handheld
