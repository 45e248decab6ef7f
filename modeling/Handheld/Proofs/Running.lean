import Handheld.Proofs.RomWindows

/-!
# Running, a number of steps, and one step after another

`Console.run`, `Console.stepMany` and `Console.stepOnce` take the same steps, and differ in what
makes them stop.  To compare them, a console is put into surroundings of which everything is known:
a `Scripted` host computes its answers from what it has heard before, and has a list of answers of
its own for the question whether to go on.  What is asked there has no influence on a step
(`Scripted.step_asking`).

`Console.Stops` says after how many steps the first breakpoint comes.  The main statement is
`Console.run_eq_stepMany`: a run in which the host goes on `n` times, and `n` steps, end with the
same status and leave the same machine, which is the one after that many single steps.
-/

namespace Handheld

/-- Surroundings whose answers are functions of what they have heard. -/
structure Scripted where
  /-- The buttons that are pressed. -/
  buttons : List Call → Buttons
  /-- The byte that is exchanged for another one. -/
  bytes : List Call → UInt8 → UInt8
  /-- Whether to go on, when this is asked after a number of such questions. -/
  goesOn : Nat → Bool
  /-- Everything but the questions whether to go on, the first call first. -/
  heard : List Call := []
  /-- How often it was asked whether to go on. -/
  asked : Nat := 0

namespace Scripted

/-- Remember a call. -/
def hear (s : Scripted) (c : Call) : Scripted := { s with heard := s.heard ++ [c] }

instance : Host Scripted where
  putPixel s shade x y := s.hear (.pixel shade x y)
  frameSync s := s.hear .frame
  exchange s out := (s.bytes s.heard out, s.hear (.exchange out))
  pollButtons s := (s.buttons s.heard, s.hear .buttons)
  pollContinue s := (s.goesOn s.asked, { s with asked := s.asked + 1 })

/-- The same surroundings with other answers to the question whether to go on. -/
def asking (s : Scripted) (goesOn : Nat → Bool) (asked : Nat) : Scripted :=
  { s with goesOn := goesOn, asked := asked }

variable (goesOn : Nat → Bool) (asked : Nat)

/-- The question whether to go on has an answer of its own, and changes no other answer. -/
lemma pollContinue_asking (s : Scripted) : Host.pollContinue (s.asking goesOn asked) =
    (goesOn asked, s.asking goesOn (asked + 1)) := rfl

/-- The answers to all other questions do not depend on it. -/
lemma agree : Host.Agree fun s t : Scripted => s = t.asking goesOn asked where
  putPixel := by
    rintro _ t shade x y rfl
    rfl
  frameSync := by
    rintro _ t rfl
    rfl
  exchange_fst := by
    rintro _ t v rfl
    rfl
  exchange_snd := by
    rintro _ t v rfl
    rfl
  pollButtons_fst := by
    rintro _ t rfl
    rfl
  pollButtons_snd := by
    rintro _ t rfl
    rfl

/-- A step neither asks whether to go on, nor depends on the answer. -/
theorem step_asking (m : Machine) (s : Scripted) (journal : Journal) :
    (m.step (s.asking goesOn asked) journal).machine = (m.step s journal).machine ∧
      (m.step (s.asking goesOn asked) journal).host = (m.step s journal).host.asking goesOn asked ∧
      (m.step (s.asking goesOn asked) journal).journal = (m.step s journal).journal := by
  obtain ⟨-, hmachine, hhost⟩ :=
    Machine.step_agree (agree goesOn asked) (b := s) rfl m m.batteryFile journal journal
  exact ⟨hmachine.symm, hhost, rfl⟩

end Scripted

namespace Console

/-! ### Where a run stops -/

section

variable {η : Type} [Host η]

/-- The program counter is at a breakpoint. -/
def AtBreakpoint (breakpoints : List UInt16) (c : Console η) : Prop :=
  ∃ m, c.machine = some m ∧ m.cpu.regs.pc ∈ breakpoints

/-- Of `n` steps, those before the first breakpoint are taken. -/
structure Stops (breakpoints : List UInt16) (c : Console η) (n k : Nat) (status : Debug.Status) :
    Prop where
  before : ∀ j < k, ¬ (stepped j c).AtBreakpoint breakpoints
  ending : (k < n ∧ (stepped k c).AtBreakpoint breakpoints ∧ status = .breakpoint) ∨
    (k = n ∧ status = .success)

/-- Each number of steps comes to its end, or to a breakpoint before. -/
lemma exists_stops (breakpoints : List UInt16) (c : Console η) (n : Nat) :
    ∃ k status, Stops breakpoints c n k status := by
  classical
  by_cases h : ∃ k, k < n ∧ (stepped k c).AtBreakpoint breakpoints
  · obtain ⟨hlt, hat⟩ := Nat.find_spec h
    refine ⟨Nat.find h, .breakpoint, fun j hj hatj => ?_, .inl ⟨hlt, hat, rfl⟩⟩
    exact Nat.find_min h hj ⟨hj.trans hlt, hatj⟩
  · exact ⟨n, .success, fun j hj hatj => h ⟨j, hj, hatj⟩, .inr ⟨rfl, rfl⟩⟩

/-- There is only one first breakpoint. -/
lemma Stops.eq_of_first {breakpoints : List UInt16} {c : Console η} {n k j : Nat}
    {status : Debug.Status} (h : c.Stops breakpoints n k status) (hj : j < n)
    (hat : (stepped j c).AtBreakpoint breakpoints)
    (hbefore : ∀ i < j, ¬ (stepped i c).AtBreakpoint breakpoints) :
    k = j ∧ status = .breakpoint := by
  have hle : k ≤ j := Nat.le_of_not_lt fun hlt => h.before j hlt hat
  rcases h.ending with ⟨-, hatk, hstatus⟩ | ⟨rfl, -⟩
  · exact ⟨Nat.le_antisymm hle (Nat.le_of_not_lt fun hlt => hbefore k hlt hatk), hstatus⟩
  · exact absurd hj (Nat.not_lt.mpr hle)

end

/-! ### Runs -/

/-- The console with other answers to the question whether to go on. -/
def asking (c : Console Scripted) (goesOn : Nat → Bool) (asked : Nat) : Console Scripted :=
  { c with host := c.host.asking goesOn asked }

section

variable {breakpoints : List UInt16} {c : Console Scripted} {m : Machine} {goesOn : Nat → Bool}
  {asked limit : Nat}

/-- A step does not depend on these answers. -/
lemma stepOnce_asking (c : Console Scripted) (goesOn : Nat → Bool) (asked : Nat) :
    (c.asking goesOn asked).stepOnce.2 = c.stepOnce.2.asking goesOn asked := by
  obtain ⟨config, machine, host, disk, journal⟩ := c
  cases machine with
  | none => rfl
  | some m =>
    obtain ⟨hmachine, hhost, hjournal⟩ := Scripted.step_asking goesOn asked m host journal
    simp only [asking, stepOnce, hmachine, hhost, hjournal]

/-- A run takes no step if it may not. -/
lemma run_zero (hm : c.machine = some m) :
    (c.asking goesOn asked).run 0 breakpoints = (none, c.asking goesOn asked) := by
  obtain ⟨config, machine, host, disk, journal⟩ := c
  obtain rfl : machine = some m := hm
  rfl

/-- A run ends if the host does not want to go on. -/
lemma run_refused (hm : c.machine = some m) (hpoll : goesOn asked = false) :
    (c.asking goesOn asked).run (limit + 1) breakpoints =
      (some .success, c.asking goesOn (asked + 1)) := by
  obtain ⟨config, machine, host, disk, journal⟩ := c
  obtain rfl : machine = some m := hm
  simp only [asking, run, runSteps, Scripted.pollContinue_asking, hpoll]

/-- A run ends at a breakpoint. -/
lemma run_atBreakpoint (hpoll : goesOn asked = true) (hat : c.AtBreakpoint breakpoints) :
    (c.asking goesOn asked).run (limit + 1) breakpoints =
      (some .breakpoint, c.asking goesOn (asked + 1)) := by
  obtain ⟨config, machine, host, disk, journal⟩ := c
  obtain ⟨m, hm, hmem⟩ := hat
  obtain rfl : machine = some m := hm
  have hcontains : breakpoints.contains m.cpu.regs.pc = true := List.contains_iff_mem.mpr hmem
  simp only [asking, run, runSteps, Scripted.pollContinue_asking, hpoll, if_pos hcontains]

/-- A run that is not at a breakpoint, and whose host wants to go on, takes a step. -/
lemma run_succ (hm : c.machine = some m) (hpoll : goesOn asked = true)
    (hnot : ¬ c.AtBreakpoint breakpoints) :
    (c.asking goesOn asked).run (limit + 1) breakpoints =
      (c.stepOnce.2.asking goesOn (asked + 1)).run limit breakpoints := by
  rw [← stepOnce_asking]
  obtain ⟨config, machine, host, disk, journal⟩ := c
  obtain rfl : machine = some m := hm
  have hcontains : ¬ breakpoints.contains m.cpu.regs.pc = true := fun h =>
    hnot ⟨m, rfl, List.contains_iff_mem.mp h⟩
  simp only [asking, run, runSteps, Scripted.pollContinue_asking, hpoll, if_neg hcontains, stepOnce]

/-- Away from the breakpoints, and as long as the host goes on, a run takes one step after
another. -/
lemma run_add (hm : c.machine = some m) (k : Nat) (hgoesOn : ∀ j < k, goesOn (asked + j) = true)
    (hbefore : ∀ j < k, ¬ (stepped j c).AtBreakpoint breakpoints) :
    (c.asking goesOn asked).run (k + limit) breakpoints =
      ((stepped k c).asking goesOn (asked + k)).run limit breakpoints := by
  induction k generalizing c m asked with
  | zero => rw [Nat.zero_add, Nat.add_zero, stepped]
  | succ k ih =>
    have hpoll : goesOn asked = true := hgoesOn 0 k.succ_pos
    have hgoesOn' : ∀ j < k, goesOn (asked + 1 + j) = true := by
      intro j hj
      rw [Nat.add_right_comm]
      exact hgoesOn (j + 1) (Nat.succ_lt_succ hj)
    have hbefore' : ∀ j < k, ¬ (stepped j c.stepOnce.2).AtBreakpoint breakpoints :=
      fun j hj => hbefore (j + 1) (Nat.succ_lt_succ hj)
    rw [Nat.succ_add, run_succ hm hpoll (hbefore 0 k.succ_pos),
      ih (machine_stepOnce hm) hgoesOn' hbefore', stepped, Nat.add_right_comm, Nat.add_assoc]

/-- Single steps keep the cartridge. -/
lemma exists_machine_stepped (hm : c.machine = some m) (k : Nat) :
    ∃ m', (stepped k c).machine = some m' := by
  induction k generalizing c m with
  | zero => exact ⟨m, hm⟩
  | succ k ih => exact ih (machine_stepOnce hm)

/-- A run whose host goes on for a number of steps ends where these stop. -/
lemma run_of_stops {n k : Nat} {status : Debug.Status} (hm : c.machine = some m)
    (hstops : c.Stops breakpoints n k status) (hgoesOn : ∀ j < n, goesOn (asked + j) = true)
    (hends : goesOn (asked + n) = false) (hlimit : n < limit) :
    (c.asking goesOn asked).run limit breakpoints =
      (some status, (stepped k c).asking goesOn (asked + k + 1)) := by
  have hle : k ≤ n := hstops.ending.elim (fun h => h.1.le) (fun h => h.1.le)
  obtain ⟨rest, rfl⟩ := Nat.exists_eq_add_of_lt (hle.trans_lt hlimit)
  rw [Nat.add_assoc, run_add hm k (fun j hj => hgoesOn j (hj.trans_le hle)) hstops.before]
  rcases hstops.ending with ⟨hlt, hat, rfl⟩ | ⟨rfl, rfl⟩
  · exact run_atBreakpoint (hgoesOn k hlt) hat
  · obtain ⟨m', hm'⟩ := exists_machine_stepped hm k
    exact run_refused hm' hends

/-- A number of steps ends where they stop.  The host is not asked after the last of them. -/
lemma stepMany_of_stops {n : UInt32} {k : Nat} {status : Debug.Status} (hm : c.machine = some m)
    (hstops : c.Stops breakpoints n.toNat k status)
    (hgoesOn : ∀ j < n.toNat, goesOn (asked + j) = true) :
    (c.asking goesOn asked).stepMany n breakpoints =
      (status, (stepped k c).asking goesOn
        (asked + if status = .breakpoint then k + 1 else n.toNat)) := by
  rw [stepMany]
  rcases hstops.ending with ⟨hlt, hat, rfl⟩ | ⟨rfl, rfl⟩
  · obtain ⟨rest, hrest⟩ := Nat.exists_eq_add_of_lt hlt
    rw [hrest, Nat.add_assoc, run_add hm k (fun j hj => hgoesOn j (hj.trans hlt)) hstops.before,
      run_atBreakpoint (hgoesOn k hlt) hat]
    rfl
  · obtain ⟨m', hm'⟩ := exists_machine_stepped hm n.toNat
    have hlimit : (c.asking goesOn asked).run (n.toNat + 0) breakpoints =
        ((stepped n.toNat c).asking goesOn (asked + n.toNat)).run 0 breakpoints :=
      run_add hm n.toNat hgoesOn hstops.before
    rw [run_zero hm'] at hlimit
    rw [← Nat.add_zero n.toNat, hlimit]
    rfl

end

/-- A run in which the host goes on `n` times, and `n` steps of a host that always goes on, end with
the same status and leave the same machine.  It is the one that single steps lead to, up to the
first breakpoint or `n` of them.  The run asks the host once more than it takes steps, and so do the
`n` steps if a breakpoint comes. -/
theorem run_eq_stepMany {c : Console Scripted} {m : Machine} (hm : c.machine = some m)
    (breakpoints : List UInt16) (n : UInt32) :
    let patient : Nat → Bool := fun asked => decide (asked < n.toNat)
    let tireless : Nat → Bool := fun _ => true
    ∃ k status, Stops breakpoints c n.toNat k status ∧
      (∀ limit, n.toNat < limit → (c.asking patient 0).run limit breakpoints =
        (some status, (stepped k c).asking patient (k + 1))) ∧
      (c.asking tireless 0).stepMany n breakpoints =
        (status, (stepped k c).asking tireless
          (if status = .breakpoint then k + 1 else n.toNat)) := by
  intro patient tireless
  obtain ⟨k, status, hstops⟩ := exists_stops breakpoints c n.toNat
  refine ⟨k, status, hstops, fun limit hlimit => ?_, ?_⟩
  · have hgoesOn : ∀ j < n.toNat, patient (0 + j) = true := by
      intro j hj
      rw [Nat.zero_add]
      exact decide_eq_true hj
    have hends : patient (0 + n.toNat) = false := by
      rw [Nat.zero_add]
      exact decide_eq_false (Nat.lt_irrefl _)
    have hrun := run_of_stops hm hstops hgoesOn hends hlimit
    rw [Nat.zero_add] at hrun
    exact hrun
  · have hgoesOn : ∀ j < n.toNat, tireless (0 + j) = true := fun _ _ => rfl
    have hsteps := stepMany_of_stops hm hstops hgoesOn
    rw [Nat.zero_add] at hsteps
    exact hsteps

end Console

/-! ### A run through instructions that do nothing -/

namespace Machine

variable {η : Type} [Host η] {m : Machine} {r : Registers}

/-- A machine that executes one instruction after another: nothing but the registers of its
processor is special, and no interrupt is enabled. -/
structure Undisturbed (r : Registers) (m : Machine) : Prop where
  cpu : m.cpu = { regs := r }
  enabled : m.bus.interrupts.enabled = {}

/-- An undisturbed machine goes past an instruction that does nothing. -/
lemma Undisturbed.step_nop (hm : m.Undisturbed r)
    (hnop : Instruction.decode (m.bus.read r.pc) = .nop) (host : η) (journal : Journal) :
    (m.step host journal).machine.Undisturbed { r with pc := r.pc + 1 } := by
  have hpending := not_pending_of_enabled hm.enabled
  have hcore : m.core journal = ⟨{ regs := r }, ⟨m.bus, journal⟩⟩ := by
    rw [core, hm.cpu]
  have hstep := Core.macroStep_of_nop (m := (⟨m.bus, journal⟩ : ReportingBus)) hpending hnop
  rw [← hcore] at hstep
  constructor
  · rw [cpu_step, hstep]
    rfl
  · rw [enabled_step, executed, hstep]
    exact hm.enabled

/-- The small cartridge does nothing in front of its checksum. -/
lemma WellFormed.nop_plainImage {P : Display → Prop} {m₀ : Machine} {config : Config}
    (hbuild : build Cartridge.plainImage none config = .ok m₀) (hm : m.WellFormed P m₀)
    {addr : UInt16} (haddr : addr.toNat < 0x14D) :
    Instruction.decode (m.bus.read addr) = .nop := by
  have hshows := hm.showsRom hbuild
  have huncovered : ¬ (addr.toNat ≤ 0xFF ∧ m.bus.bootActive = true) := by
    rintro ⟨hlow, hactive⟩
    obtain ⟨bytes, hbytes, -⟩ := hshows.covered addr hlow hactive
    cases hbytes
  have hread := hshows.fixed addr (by rw [romBankSize]; omega) huncovered
  have hzero := Cartridge.getD_plainImage addr.toNat
  rw [Array.getD_eq_getD_getElem?, hread, if_neg (by omega)] at hzero
  rw [show m.bus.read addr = 0 from hzero]
  rfl

end Machine

namespace Console

/-- A console with the small cartridge goes through it, instruction by instruction. -/
lemma Holds.stepped_plainImage {η : Type} [Host η] {c : Console η} {P : Display → Prop}
    {config : Config} {m₀ m : Machine} {r : Registers} (hP : Display.Lasting P)
    (hbuild : Machine.build Cartridge.plainImage none config = .ok m₀)
    (hc : c.Holds P config m₀) (hm : c.machine = some m) (hr : m.Undisturbed r) (k : Nat)
    (hk : r.pc.toNat + k ≤ 0x14D) :
    ∃ m', (Console.stepped k c).machine = some m' ∧ m'.cpu.regs.pc.toNat = r.pc.toNat + k := by
  induction k generalizing c m r with
  | zero => exact ⟨m, hm, by rw [hr.cpu, Nat.add_zero]⟩
  | succ k ih =>
    obtain ⟨m₁, hm₁, hwell⟩ := hc.machine
    obtain rfl := Option.some.inj (hm.symm.trans hm₁)
    have hpc : (r.pc + 1).toNat = r.pc.toNat + 1 := by
      rw [UInt16.toNat_add]
      exact Nat.mod_eq_of_lt (by change _ + 1 < 65536; omega)
    have hnext := hr.step_nop (hwell.nop_plainImage hbuild (by omega)) c.host c.journal
    obtain ⟨m', hm', hpc'⟩ := ih (hc.step hP) (machine_stepOnce hm) hnext (by rw [hpc]; omega)
    refine ⟨m', hm', hpc'.trans ?_⟩
    rw [hpc, Nat.add_assoc, Nat.add_comm 1 k]

/-- A console that nobody has used yet, without a player and at the end of no cable. -/
def alone : Console Scripted :=
  { host := { buttons := fun _ => .none, bytes := fun _ _ => 0xFF, goesOn := fun _ => true } }

/-- With the small cartridge it starts at the entry point and goes on from there. -/
lemma stepped_alone {k : Nat} (hk : k ≤ 0x4D) :
    ∃ m, (stepped k (alone.load Cartridge.plainImage).2).machine = some m ∧
      m.cpu.regs.pc.toNat = 0x100 + k := by
  obtain ⟨hload, header, hm⟩ := load_plainImage alone
  have hplain : (Machine.switchedOn header Cartridge.plainImage none alone.config).Undisturbed
      .postBoot := ⟨rfl, rfl⟩
  obtain ⟨m₀, hbuild, hholds⟩ := Holds.load (c := alone) rfl hload
  exact hholds.stepped_plainImage Display.lasting_wellFormed hbuild hm hplain k
    (Nat.add_le_add_left hk 0x100)

/-- What `run_eq_stepMany` says about the small cartridge, if the breakpoint comes after three of
five steps. -/
theorem run_eq_stepMany_plainImage :
    let c := (alone.load Cartridge.plainImage).2
    (c.asking (fun asked => decide (asked < 5)) 0).run 6 [0x103] =
        (some .breakpoint, (stepped 3 c).asking (fun asked => decide (asked < 5)) 4) ∧
      (c.asking (fun _ => true) 0).stepMany 5 [0x103] =
        (.breakpoint, (stepped 3 c).asking (fun _ => true) 4) := by
  intro c
  obtain ⟨m, hm, -⟩ := stepped_alone (Nat.zero_le 0x4D)
  rw [stepped] at hm
  obtain ⟨k, status, hstops, hrun, hmany⟩ := run_eq_stepMany hm [0x103] 5
  have hat : (stepped 3 c).AtBreakpoint [0x103] := by
    obtain ⟨m₃, hm₃, hpc⟩ := stepped_alone (k := 3) (by decide)
    exact ⟨m₃, hm₃, List.mem_singleton.mpr (UInt16.toNat_inj.mp hpc)⟩
  have hbefore : ∀ i < 3, ¬ (stepped i c).AtBreakpoint [0x103] := by
    rintro i hi ⟨m', hm', hmem⟩
    obtain ⟨mᵢ, hmᵢ, hpc⟩ := stepped_alone (k := i) (by omega)
    obtain rfl := Option.some.inj (hmᵢ.symm.trans hm')
    rw [List.mem_singleton.mp hmem] at hpc
    change 0x103 = 0x100 + i at hpc
    omega
  obtain ⟨rfl, rfl⟩ := hstops.eq_of_first (by decide) hat hbefore
  exact ⟨hrun 6 (by decide), hmany⟩

end Console

end Handheld
