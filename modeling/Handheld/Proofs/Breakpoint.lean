import Handheld.Console.Basic
import Handheld.Proofs.Core.Control
import Handheld.Proofs.Saved.Console

/-!
# Runs and breakpoints

`Console.run` compares the program counter with the breakpoints before each macro-step.  To say what
the macro-steps of a run do, `Console.runTraced` is the same run with a ghost beside it: the cores
that its macro-steps start from.  Forgetting the ghost gives the run (`Console.runTraced_snd`).

The main statement is `Console.run_breakpoints`.  A macro-step looks for an interrupt before it
executes an instruction, and a dispatch leads to a vector that nobody has compared with the
breakpoints; so a macro-step executes an instruction at a breakpoint exactly if it dispatches a
source whose vector is one (`Console.run_executes_vector`).
-/

namespace Handheld

/-- The processor of a machine with its memory, behind a journal. -/
def Machine.core (m : Machine) (journal : Journal) : Core ReportingBus := ⟨m.cpu, ⟨m.bus, journal⟩⟩

namespace Console

variable {η : Type} [Host η]

/-- A run, and the cores that its macro-steps start from. -/
def runTraced (breakpoints : List UInt16) :
    Nat → Machine → η → Journal → List (Core ReportingBus) × Ran η
  | 0, m, host, journal => ([], ⟨none, m, host, journal⟩)
  | n + 1, m, host, journal =>
    match Host.pollContinue host with
    | (false, host) => ([], ⟨some .success, m, host, journal⟩)
    | (true, host) =>
      if breakpoints.contains m.cpu.regs.pc then ([], ⟨some .breakpoint, m, host, journal⟩)
      else
        let next := m.step host journal
        let (cores, ran) := runTraced breakpoints n next.machine next.host next.journal
        (m.core journal :: cores, ran)

/-- Without the ghost it is the run. -/
theorem runTraced_snd (breakpoints : List UInt16) (n : Nat) (m : Machine) (host : η)
    (journal : Journal) :
    (runTraced breakpoints n m host journal).2 = runSteps breakpoints n m host journal := by
  induction n generalizing m host journal with
  | zero => rfl
  | succ n ih =>
    rcases hpoll : Host.pollContinue host with ⟨_ | _, host'⟩
    · simp only [runTraced, runSteps, hpoll]
    · by_cases hpc : breakpoints.contains m.cpu.regs.pc = true
      · simp only [runTraced, runSteps, hpoll, if_pos hpc]
      · simp only [runTraced, runSteps, hpoll, if_neg hpc, ih]

/-- No macro-step of a run starts at a breakpoint. -/
lemma pc_of_runTraced {breakpoints : List UInt16} {n : Nat} {m : Machine} {host : η}
    {journal : Journal} {s : Core ReportingBus}
    (hs : s ∈ (runTraced breakpoints n m host journal).1) : s.cpu.regs.pc ∉ breakpoints := by
  induction n generalizing m host journal with
  | zero => simp [runTraced] at hs
  | succ n ih =>
    rcases hpoll : Host.pollContinue host with ⟨_ | _, host'⟩
    · simp [runTraced, hpoll] at hs
    by_cases hpc : breakpoints.contains m.cpu.regs.pc = true
    · simp only [runTraced, hpoll, if_pos hpc] at hs
      cases hs
    · simp only [runTraced, hpoll, if_neg hpc] at hs
      rcases List.mem_cons.mp hs with rfl | hs
      · exact fun hmem => hpc (List.contains_iff_mem.mpr hmem)
      · exact ih hs

/-- A run that ends with the status of a breakpoint ends in front of one. -/
lemma pc_of_breakpoint {breakpoints : List UInt16} {n : Nat} {m : Machine} {host : η}
    {journal : Journal}
    (h : (runTraced breakpoints n m host journal).2.status? = some .breakpoint) :
    (runTraced breakpoints n m host journal).2.machine.cpu.regs.pc ∈ breakpoints := by
  induction n generalizing m host journal with
  | zero => simp [runTraced] at h
  | succ n ih =>
    rcases hpoll : Host.pollContinue host with ⟨_ | _, host'⟩
    · simp [runTraced, hpoll] at h
    by_cases hpc : breakpoints.contains m.cpu.regs.pc = true
    · simp only [runTraced, hpoll, if_pos hpc]
      exact List.contains_iff_mem.mp hpc
    · simp only [runTraced, hpoll, if_neg hpc] at h ⊢
      exact ih h

/-- What the macro-steps of a run, and its status, have to do with the breakpoints. -/
structure Heeds (breakpoints : List UInt16) (t : List (Core ReportingBus) × Ran η) : Prop where
  /-- A macro-step executes an instruction at a breakpoint exactly if it dispatches a source whose
  vector is the breakpoint, and the processor is not stopped. -/
  executing : ∀ s ∈ t.1, ∀ a ∈ breakpoints, s.executing? = some a ↔
    s.cpu.stopped = false ∧ ∃ x, s.dispatched? = some x ∧ x.vector = a
  /-- The status of a breakpoint means that the machine is in front of one. -/
  front : t.2.status? = some .breakpoint → t.2.machine.cpu.regs.pc ∈ breakpoints

/-- A run never executes the instruction at a breakpoint, except as the first instruction after a
dispatch, and stops in front of a breakpoint whenever it says so; this is also true of a number of
steps. -/
theorem run_breakpoints (config : Config) (m : Machine) (host : η) (disk : Disk)
    (journal : Journal) (breakpoints : List UInt16) :
    let c : Console η := ⟨config, some m, host, disk, journal⟩
    let t := fun limit => runTraced breakpoints limit m host journal
    let after := fun ran : Ran η =>
      (⟨config, some ran.machine, ran.host, disk, ran.journal⟩ : Console η)
    (∀ limit, Heeds breakpoints (t limit) ∧
      c.run limit breakpoints = ((t limit).2.status?, after (t limit).2)) ∧
    ∀ count : UInt32, c.stepMany count breakpoints =
      ((t count.toNat).2.status?.getD .success, after (t count.toNat).2) := by
  intro c t after
  have hrun : ∀ limit, c.run limit breakpoints = ((t limit).2.status?, after (t limit).2) := by
    intro limit
    simp only [c, t, after, run, runTraced_snd]
  refine ⟨fun limit => ⟨⟨?_, pc_of_breakpoint⟩, hrun limit⟩, ?_⟩
  · intro s hs a ha
    have hpc := pc_of_runTraced hs
    cases hx : s.dispatched? with
    | none =>
      refine ⟨fun hexec => ?_, ?_⟩
      · rw [Core.executing_of_not_dispatched hx hexec] at ha
        exact absurd ha hpc
      · rintro ⟨-, x, hx', -⟩
        cases hx'
    | some x =>
      rw [Core.executing_of_dispatched hx]
      cases hstopped : s.cpu.stopped with
      | true => simp
      | false => simp
  · intro count
    simp only [stepMany, hrun]

omit [Host η] in
/-- A write reaches the machine. -/
lemma machine_write {c : Console η} {m : Machine} (h : c.machine = some m) (addr : UInt16)
    (v : UInt8) : (c.write addr v).machine = some { m with bus := m.bus.write addr v } := by
  obtain ⟨journal, hwrite⟩ := write_eq h addr v
  rw [hwrite]

omit [Host η] in
/-- A value that fits into a register reaches the machine. -/
lemma machine_setRegister {c : Console η} {m m' : Machine} {r : RegisterId} {v : UInt32}
    (h : c.machine = some m) (hset : m.setRegister? r v = some m') :
    (c.setRegister r v).2.machine = some m' := by
  simp only [setRegister, h, Option.bind_some, hset]

/-- A run of one macro-step with a breakpoint elsewhere, if the host wants to go on. -/
lemma runTraced_one {breakpoints : List UInt16} {m : Machine} {host host' : η}
    (hpoll : Host.pollContinue host = (true, host')) (hpc : m.cpu.regs.pc ∉ breakpoints)
    (journal : Journal) :
    (runTraced breakpoints 1 m host journal).1 = [m.core journal] ∧
      (runTraced breakpoints 1 m host journal).2.status? = none := by
  have hcontains : ¬ breakpoints.contains m.cpu.regs.pc = true :=
    fun h => hpc (List.contains_iff_mem.mp h)
  simp only [runTraced, hpoll, if_neg hcontains]
  exact ⟨trivial, trivial⟩

/-- A console with the small cartridge that is about to dispatch the vertical blank interrupt. -/
def interrupted : Console Solitude :=
  (((unused.load Cartridge.plainImage).2.setRegister .ime 1).2.write 0xFFFF 0x01).write 0xFF0F 0x01

/-- The machine of the console that is about to dispatch. -/
lemma machine_interrupted : ∃ m, interrupted.machine = some m ∧
    m.cpu = { Processor.postBoot with ime := true } ∧
    m.bus.interrupts = { enabled := .single .vblank true, requested := .single .vblank true } := by
  obtain ⟨-, header, hload⟩ := load_plainImage unused
  have hset := machine_setRegister hload (r := .ime) (v := 1) rfl
  have hwrite := machine_write (machine_write hset 0xFFFF 0x01) 0xFF0F 0x01
  have henabled : ∀ b : Bus, (b.write 0xFFFF 0x01).interrupts = b.interrupts.writeEnable 0x01 :=
    fun _ => rfl
  have hrequested : ∀ b : Bus, (b.write 0xFF0F 0x01).interrupts = b.interrupts.writeRequest 0x01 :=
    fun _ => rfl
  refine ⟨_, hwrite, ?_, ?_⟩
  · rfl
  · simp only [hrequested, henabled]
    rfl

/-- A run whose only breakpoint is the vector of the vertical blank interrupt executes the
instruction there, and does not end in front of it. -/
theorem run_executes_vector : ∃ m, interrupted.machine = some m ∧
    ∃ s ∈ (runTraced [0x40] 1 m interrupted.host interrupted.journal).1,
      s.executing? = some 0x40 ∧
      (runTraced [0x40] 1 m interrupted.host interrupted.journal).2.status? = none := by
  obtain ⟨m, hm, hcpu, hinterrupts⟩ := machine_interrupted
  have hpc : m.cpu.regs.pc ∉ [0x40] := by
    rw [hcpu]
    decide
  have hpoll : ∀ host : Solitude, Host.pollContinue host = (true, host) := fun _ => rfl
  obtain ⟨hcores, hstatus⟩ := runTraced_one (hpoll interrupted.host) hpc interrupted.journal
  have hdispatched : (m.core interrupted.journal).dispatched? = some .vblank := by
    change (if m.cpu.ime then m.bus.interrupts.pending.first? else none) = some .vblank
    rw [hcpu, hinterrupts]
    decide
  refine ⟨m, hm, m.core interrupted.journal, ?_, ?_, hstatus⟩
  · rw [hcores]
    exact List.mem_singleton_self _
  · have hstopped : (m.core interrupted.journal).cpu.stopped = false := by
      change m.cpu.stopped = false
      rw [hcpu]
      rfl
    rw [Core.executing_of_dispatched hdispatched, hstopped]
    rfl

end Console

end Handheld
