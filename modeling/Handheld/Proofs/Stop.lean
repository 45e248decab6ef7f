import Handheld.Proofs.ButtonPolling
import Handheld.Proofs.Checked.Machine
import Handheld.Proofs.Core.Service

/-!
# A stopped processor

A processor that `stop` has stopped is meant to do nothing until a button is pressed, and most of
the time this is what it does.  But a macro-step looks for an interrupt before it asks whether the
processor is idle, and the search knows about `halt` and not about `stop`.  So a pending interrupt
is acknowledged, and with interrupts enabled the processor goes to the vector and idles there.

A macro-step of a stopped core is this search and nothing else (`Core.macroStep_of_stopped`), and
there are two cases: nothing gets through (`Core.frozen_of_stopped`), or an interrupt is pending
(`Core.interrupted_of_stopped`).  The list of what is written comes from the same macro-step of the
core that writes it down.  For a machine, `Machine.pressed` is whether a button is pressed while the
step passes; the cases are `Machine.step_frozen` and `Machine.step_interrupted`.  By induction over
the steps, the processor is stopped as long as no button is pressed, and the same as in the
beginning if nothing gets through (`Machine.steps_of_not_pressed`).  The main statement is
`Machine.stop_freezes`.
-/

namespace Handheld

namespace Core

variable {μ : Type} [Memory μ] {s : Core μ}

/-! ### Macro-steps of a stopped processor -/

/-- A stopped processor looks for an interrupt, and idles. -/
theorem macroStep_of_stopped (h : s.cpu.stopped = true) :
    s.macroStep = s.service.2 ∧ s.macroCost = s.service.1 + idleCycles := by
  have hstep : s.service.2.step = (idleCycles, s.service.2) := by
    rw [step, stopped_service, h, Bool.or_true, if_pos rfl]
  rw [macroStep, macroCost, hstep]
  exact ⟨rfl, rfl⟩

/-- A stopped processor executes no instruction. -/
lemma executing_of_stopped (h : s.cpu.stopped = true) : s.executing? = none := by
  simp [executing?, stopped_service, h]

/-- Acknowledging an interrupt writes nothing. -/
lemma writes_acknowledged (s : Core μ) : s.logged.acknowledged.writes = [] := by
  unfold acknowledged
  split
  · rfl
  · rfl

/-- A dispatch writes the program counter to the stack. -/
lemma writes_dispatch (s : Core (Logged μ)) (x : Source) :
    (s.dispatch x).memory.writes = s.memory.writes ++
      [(s.cpu.regs.sp - 1, Word.high s.cpu.regs.pc),
        (s.cpu.regs.sp - 2, Word.low s.cpu.regs.pc)] := by
  rw [← Word.sub_one_sub_one]
  exact List.append_assoc s.memory.writes [_] [_]

/-- A stopped processor stays as it is if no interrupt is pending, or if interrupts are disabled and
it is not halted besides. -/
theorem frozen_of_stopped (hstopped : s.cpu.stopped = true)
    (hs : (Memory.controller s.memory).pending.first? ≠ none →
      s.cpu.ime = false ∧ s.cpu.halted = false) :
    s.macroStep.cpu = s.cpu ∧ s.writes = [] ∧ s.macroCost = 4 := by
  obtain ⟨hstep, hcost⟩ := macroStep_of_stopped hstopped
  obtain ⟨hlogged, -⟩ := macroStep_of_stopped (s := s.logged) hstopped
  have hservice : s.logged.service = (0, ⟨s.cpu, s.logged.acknowledged⟩) := service_of_masked hs
  rw [writes, hlogged, hstep, hcost, service_of_masked hs, hservice]
  exact ⟨rfl, s.writes_acknowledged, rfl⟩

/-- A pending interrupt ends `halt`, and if interrupts are enabled the processor goes to the vector
and idles there. -/
theorem interrupted_of_stopped (hstopped : s.cpu.stopped = true) {x : Source}
    (hx : (Memory.controller s.memory).pending.first? = some x) :
    s.macroStep.cpu = { s.cpu with
        ime := false
        halted := false
        regs := if s.cpu.ime then { s.cpu.regs with pc := x.vector, sp := s.cpu.regs.sp - 2 }
          else s.cpu.regs } ∧
      s.writes = (if s.cpu.ime then
          [(s.cpu.regs.sp - 1, Word.high s.cpu.regs.pc),
            (s.cpu.regs.sp - 2, Word.low s.cpu.regs.pc)]
        else []) ∧
      s.macroCost = (if s.cpu.halted then 8 else 4) + if s.cpu.ime then 20 else 0 := by
  have hservice := service_of_pending (s := s.logged) hx
  have hacknowledged := s.writes_acknowledged
  obtain ⟨hstep, hcost⟩ := macroStep_of_stopped hstopped
  obtain ⟨hlogged, -⟩ := macroStep_of_stopped (s := s.logged) hstopped
  rw [writes, hlogged, hstep, hcost, service_of_pending hx, hservice]
  obtain ⟨⟨regs, ime, delay, halted, stopped, trace⟩, m⟩ := s
  cases ime with
  | true =>
    refine ⟨cpu_dispatch _ x, ?_, ?_⟩
    · refine (writes_dispatch _ x).trans ?_
      rw [hacknowledged]
      rfl
    · cases halted <;> rfl
  | false =>
    refine ⟨rfl, hacknowledged, ?_⟩
    cases halted <;> rfl

end Core

/-! ### Steps of a stopped machine -/

namespace Machine

variable {η : Type} [Host η] {m : Machine}

/-- A stopped processor stays stopped until a button is pressed. -/
lemma stopped_step (hstopped : m.cpu.stopped = true) (host : η) (journal : Journal) :
    (m.step host journal).machine.cpu.stopped = !m.pressed host journal := by
  obtain ⟨hstep, -⟩ := Core.macroStep_of_stopped (s := m.core journal) hstopped
  rw [cpu_step, hstep]
  change ((m.core journal).service.2.cpu.stopped && !m.pressed host journal) = _
  rw [Core.stopped_service]
  change (m.cpu.stopped && !m.pressed host journal) = _
  rw [hstopped, Bool.true_and]

/-- Nothing else changes if no interrupt is pending, or if interrupts are disabled and the processor
is not halted besides. -/
theorem step_frozen (hstopped : m.cpu.stopped = true)
    (hm : m.bus.interrupts.pending.first? ≠ none → m.cpu.ime = false ∧ m.cpu.halted = false)
    (host : η) (journal : Journal) :
    (m.step host journal).machine.cpu = { m.cpu with stopped := !m.pressed host journal } ∧
      (m.core journal).writes = [] ∧ (m.step host journal).cycles = 4 := by
  obtain ⟨hcpu, hwrites, hcost⟩ := Core.frozen_of_stopped (s := m.core journal) hstopped hm
  obtain ⟨hcycles, -⟩ := m.step_eq host journal
  refine ⟨?_, hwrites, hcycles.trans hcost⟩
  rw [cpu_step, hcpu]
  change { m.cpu with stopped := m.cpu.stopped && !m.pressed host journal } = _
  rw [hstopped, Bool.true_and]

/-- A pending interrupt is dispatched or ends `halt`, and costs more. -/
theorem step_interrupted (hstopped : m.cpu.stopped = true) {x : Source}
    (hx : m.bus.interrupts.pending.first? = some x) (host : η) (journal : Journal) :
    (m.step host journal).machine.cpu = { m.cpu with
        ime := false
        halted := false
        stopped := !m.pressed host journal
        regs := if m.cpu.ime then { m.cpu.regs with pc := x.vector, sp := m.cpu.regs.sp - 2 }
          else m.cpu.regs } ∧
      (m.core journal).writes = (if m.cpu.ime then
          [(m.cpu.regs.sp - 1, Word.high m.cpu.regs.pc),
            (m.cpu.regs.sp - 2, Word.low m.cpu.regs.pc)]
        else []) ∧
      (m.step host journal).cycles =
        (if m.cpu.halted then 8 else 4) + if m.cpu.ime then 20 else 0 := by
  obtain ⟨hcpu, hwrites, hcost⟩ := Core.interrupted_of_stopped (s := m.core journal) hstopped hx
  obtain ⟨hcycles, -⟩ := m.step_eq host journal
  refine ⟨?_, hwrites, hcycles.trans hcost⟩
  rw [cpu_step, hcpu]
  change { m.cpu with
    ime := false
    halted := false
    stopped := m.cpu.stopped && !m.pressed host journal
    regs := if m.cpu.ime then { m.cpu.regs with pc := x.vector, sp := m.cpu.regs.sp - 2 }
      else m.cpu.regs } = _
  rw [hstopped, Bool.true_and]

/-! ### Runs -/

/-- A stopped machine takes `n` steps without a press.  The processor is still stopped, and it is
the same if nothing got through. -/
theorem steps_of_not_pressed (hstopped : m.cpu.stopped = true) {n : Nat} {host : η}
    {journal : Journal}
    (hquiet : ∀ k < n, let s := m.steps k host journal
      s.1.pressed s.2.1 s.2.2 = false) :
    (m.steps n host journal).1.cpu.stopped = true ∧
      ((∀ k < n, (m.steps k host journal).1.bus.interrupts.pending.first? ≠ none →
          m.cpu.ime = false ∧ m.cpu.halted = false) →
        (m.steps n host journal).1.cpu = m.cpu) := by
  induction n generalizing m host journal with
  | zero => exact ⟨hstopped, fun _ => rfl⟩
  | succ n ih =>
    have hfirst : m.pressed host journal = false := hquiet 0 (Nat.succ_pos n)
    have hnext : (m.step host journal).machine.cpu.stopped = true := by
      rw [stopped_step hstopped, hfirst]
      rfl
    obtain ⟨hlast, hsame⟩ := ih hnext fun k hk => hquiet (k + 1) (Nat.succ_lt_succ hk)
    refine ⟨hlast, fun hmasked => ?_⟩
    obtain ⟨hcpu, -⟩ := step_frozen hstopped (hmasked 0 (Nat.succ_pos n)) host journal
    rw [hfirst, Bool.not_false, ← hstopped] at hcpu
    refine (hsame fun k hk => ?_).trans hcpu
    rw [hcpu]
    exact hmasked (k + 1) (Nat.succ_lt_succ hk)

/-- A stopped machine that has taken any number of steps without a press, and takes another one.
It executes no instruction, and stays stopped exactly if no button is pressed.  Nothing else of the
processor changes, nothing is written, and the step costs as much as an idle one, if no interrupt is
pending, or if interrupts are disabled and the processor is not halted besides.  A pending interrupt
ends `halt`, and if interrupts are enabled the processor goes to the vector, with the program
counter on the stack; both add to the cost. -/
theorem stop_freezes (hstopped : m.cpu.stopped = true) (host : η) (journal : Journal) (n : Nat)
    (hquiet : ∀ k < n, let s := m.steps k host journal
      s.1.pressed s.2.1 s.2.2 = false) :
    let s := m.steps n host journal
    let before := s.1
    let pressed := before.pressed s.2.1 s.2.2
    let core := before.core s.2.2
    let next := before.step s.2.1 s.2.2
    let pending := fun m : Machine => m.bus.interrupts.pending.first?
    before.cpu.stopped = true ∧ core.executing? = none ∧
    next.machine.cpu.stopped = !pressed ∧
    ((∀ k < n, pending (m.steps k host journal).1 ≠ none →
        m.cpu.ime = false ∧ m.cpu.halted = false) →
      before.cpu = m.cpu) ∧
    ((pending before ≠ none → before.cpu.ime = false ∧ before.cpu.halted = false) →
      next.machine.cpu = { before.cpu with stopped := !pressed } ∧ core.writes = [] ∧
      next.cycles = 4) ∧
    ∀ x, pending before = some x →
      next.machine.cpu = { before.cpu with
        ime := false
        halted := false
        stopped := !pressed
        regs := if before.cpu.ime then
            { before.cpu.regs with pc := x.vector, sp := before.cpu.regs.sp - 2 }
          else before.cpu.regs } ∧
      core.writes = (if before.cpu.ime then
          [(before.cpu.regs.sp - 1, Word.high before.cpu.regs.pc),
            (before.cpu.regs.sp - 2, Word.low before.cpu.regs.pc)]
        else []) ∧
      next.cycles = (if before.cpu.halted then 8 else 4) + if before.cpu.ime then 20 else 0 := by
  intro s before pressed core next pending
  obtain ⟨hbefore, hsame⟩ := steps_of_not_pressed hstopped hquiet
  exact ⟨hbefore, Core.executing_of_stopped hbefore, stopped_step hbefore _ _, hsame,
    fun hmasked => step_frozen hbefore hmasked _ _,
    fun x hx => step_interrupted hbefore hx _ _⟩

/-- With nothing attached, no button is ever pressed. -/
lemma pressed_solitude (m : Machine) (host : Solitude) (journal : Journal) :
    m.pressed host journal = false :=
  (m.executed journal).joypad.advance_solitude (m.core journal).macroCost host

end Machine

namespace Console

/-- The console with its processor stopped. -/
def stopped {η : Type} (c : Console η) : Console η := (c.setRegister .stop 1).2

/-- Stopping a console changes nothing of its machine but the processor. -/
lemma machine_stopped {η : Type} {c : Console η} {m : Machine} (h : c.machine = some m) :
    c.stopped.machine = some { m with cpu := { m.cpu with stopped := true } } :=
  machine_setRegister h rfl

/-- A console with the small cartridge that has been stopped. -/
def asleep : Console Solitude := (unused.load Cartridge.plainImage).2.stopped

/-- The machine of the stopped console. -/
lemma machine_asleep : ∃ m, asleep.machine = some m ∧
    m.cpu = { Processor.postBoot with stopped := true } := by
  obtain ⟨-, header, hload⟩ := load_plainImage unused
  exact ⟨_, machine_stopped hload, rfl⟩

/-- A thousand steps later nothing has changed. -/
theorem stop_freezes_asleep : ∃ m, asleep.machine = some m ∧ m.cpu.stopped = true ∧
    (∀ k < 1000, let s := m.steps k asleep.host asleep.journal
      s.1.pressed s.2.1 s.2.2 = false) ∧
    (m.steps 1000 asleep.host asleep.journal).1.cpu = m.cpu := by
  obtain ⟨m, hm, hcpu⟩ := machine_asleep
  have hstopped : m.cpu.stopped = true := by rw [hcpu]
  have hquiet : ∀ k < 1000, let s := m.steps k asleep.host asleep.journal
      s.1.pressed s.2.1 s.2.2 = false :=
    fun _ _ => Machine.pressed_solitude _ _ _
  obtain ⟨-, -, -, hsame, -⟩ :=
    Machine.stop_freezes hstopped asleep.host asleep.journal 1000 hquiet
  refine ⟨m, hm, hstopped, hquiet, hsame fun k _ _ => ?_⟩
  rw [hcpu]
  exact ⟨rfl, rfl⟩

/-- A console that has been stopped just before it dispatches the vertical blank interrupt. -/
def interruptedStop : Console Solitude := interrupted.stopped

/-- The machine of the console that was stopped before a dispatch. -/
lemma machine_interruptedStop : ∃ m, interruptedStop.machine = some m ∧
    m.cpu = { Processor.postBoot with ime := true, stopped := true } ∧
    m.bus.interrupts = { enabled := .single .vblank true, requested := .single .vblank true } := by
  obtain ⟨m, hm, hcpu, hinterrupts⟩ := machine_interrupted
  refine ⟨_, machine_stopped hm, ?_, hinterrupts⟩
  rw [hcpu]

/-- The console that was stopped before a dispatch dispatches the interrupt, although no button is
pressed. -/
theorem stop_interrupted : ∃ m, interruptedStop.machine = some m ∧
    m.pressed interruptedStop.host interruptedStop.journal = false ∧
    let next := m.step interruptedStop.host interruptedStop.journal
    (m.cpu.stopped, m.cpu.ime, m.cpu.regs.pc) = (true, true, 0x100) ∧
    (next.machine.cpu.stopped, next.machine.cpu.ime, next.machine.cpu.regs.pc) =
      (true, false, 0x40) ∧
    (m.core interruptedStop.journal).writes = [(0xFFFD, 0x01), (0xFFFC, 0x00)] ∧
    next.cycles = 24 := by
  obtain ⟨m, hm, hcpu, hinterrupts⟩ := machine_interruptedStop
  have hstopped : m.cpu.stopped = true := by rw [hcpu]
  have hpending : m.bus.interrupts.pending.first? = some .vblank := by
    rw [hinterrupts]
    decide
  have hpressed := m.pressed_solitude interruptedStop.host interruptedStop.journal
  obtain ⟨hnext, hwrites, hcycles⟩ := Machine.step_interrupted hstopped hpending
    interruptedStop.host interruptedStop.journal
  refine ⟨m, hm, hpressed, ?_⟩
  rw [hpressed, hcpu] at hnext
  rw [hcpu] at hwrites hcycles
  simp only [hnext, hwrites, hcycles, hcpu]
  decide

end Console

end Handheld
