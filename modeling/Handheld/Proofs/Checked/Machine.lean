import Handheld.Proofs.Checked.Bus
import Handheld.Proofs.Closure

/-!
# A machine that never traps

The processor computes with bytes and words that wrap, so a step traps only where the processor
reaches for its memory, where time passes, or where a frame goes to the host.  `Machine.checkedStep`
is a step in which the processor works on a bus that may trap: the first trap stops everything.
Since a well-formed bus does not trap, the processor cannot tell the two buses apart
(`Bus.simulation_checked`), and the step is the usual one (`Machine.checkedStep_eq`).

The main statement is `Console.loaded_trapFree`: in a console with a cartridge, whatever has
happened to it and whatever state was imported into it, the machine takes any number of steps
without a trap, with any host, and after them all addresses can be read and written.
-/

namespace Handheld

/-! ### The memory of the processor -/

/-- A bus that may trap.  After a trap there is nothing left to read. -/
instance : Memory (Checked ReportingBus) where
  read
    | .ok ⟨bus, journal⟩, addr =>
      let journal := journal.note? (bus.readDiagnostic? addr)
      match bus.checkedRead addr with
      | .ok v => (v, .ok ⟨bus, journal⟩)
      | .error trap => (0xFF, .error trap)
    | .error trap, _ => (0xFF, .error trap)
  write m addr v := do
    let ⟨bus, journal⟩ ← m
    let journal := journal.note? (bus.writeDiagnostic? addr v)
    let bus ← bus.checkedWrite addr v
    return ⟨bus, journal⟩
  controller
    | .ok m => m.bus.interrupts
    | .error _ => {}
  setController m c := do
    let m ← m
    return { m with bus := { m.bus with interrupts := c } }
  report m d := do
    let m ← m
    return { m with journal := m.journal.note d }

namespace Bus

variable {P : Display → Prop} {b₀ : Bus} {image : Array UInt8}

/-- A processor cannot tell a well-formed bus from one that may trap. -/
theorem simulation_checked (hP : Display.Lasting P)
    (himage : Header.parse image = .ok b₀.cartridge.header) :
    Memory.Simulation fun (m : Checked ReportingBus) (n : ReportingBus) =>
      m = .ok n ∧ n.bus.WellFormed P b₀ where
  read_fst := by
    rintro _ n addr ⟨rfl, -⟩
    simp only [Memory.read, checkedRead_eq]
  read_snd := by
    rintro _ n addr ⟨rfl, hn⟩
    refine ⟨?_, hn⟩
    simp only [Memory.read, checkedRead_eq]
  write := by
    rintro _ n addr v ⟨rfl, hn⟩
    have hwrite := checkedWrite_eq (hn.cartridge.mapper.masked_banks himage) addr v
    simp only [Memory.write, Checked.ok_bind, hwrite]
    exact ⟨rfl, hn.write hP addr v⟩
  report := by
    rintro _ n d ⟨rfl, hn⟩
    exact ⟨rfl, hn⟩
  controller := by
    rintro _ n ⟨rfl, -⟩
    rfl
  acknowledge := by
    rintro _ n x ⟨rfl, hn⟩
    exact ⟨rfl, { hn with interrupts := hn.interrupts }⟩

end Bus

namespace Machine

variable {η : Type} [Host η] {m m₀ : Machine} {image : Array UInt8}

/-- Take a step, with a processor that works on a bus that may trap. -/
def checkedStep : Machine → η → Journal → Checked (Stepped η)
  | ⟨cpu, bus, clock, batteryFile⟩, host, journal => do
    let (waited, core) := Core.service (⟨cpu, .ok ⟨bus, journal⟩⟩ : Core (Checked ReportingBus))
    let (spent, core) := core.step
    let ⟨bus, journal⟩ ← core.memory
    let cycles := waited + spent
    let journal := journal.crashedUnless (decide (bus.Fits cycles.toNat))
    let ⟨bus, host, frameDone, pressed⟩ ← bus.checkedAdvance cycles host
    let cpu := if pressed then { core.cpu with stopped := false } else core.cpu
    let host ← if frameDone then bus.display.frame.checkedPresent host else pure host
    return {
      cycles := cycles
      machine := ⟨cpu, bus, clock.tick cycles, batteryFile⟩
      host := host
      journal := journal }

/-- Take a number of steps. -/
def steps : Nat → Machine → η → Journal → Machine × η × Journal
  | 0, m, host, journal => (m, host, journal)
  | n + 1, m, host, journal =>
    let stepped := m.step host journal
    steps n stepped.machine stepped.host stepped.journal

/-- Take a number of steps, unless one of them traps. -/
def checkedSteps : Nat → Machine → η → Journal → Checked (Machine × η × Journal)
  | 0, m, host, journal => return (m, host, journal)
  | n + 1, m, host, journal => do
    let stepped ← m.checkedStep host journal
    checkedSteps n stepped.machine stepped.host stepped.journal

/-- A machine whose display is on no line behind the one after the last takes a step. -/
theorem checkedStep_eq (himage : Header.parse image = .ok m₀.bus.cartridge.header)
    (hm : m.WellFormed (Display.Within (Display.lastLine + 1)) m₀) (host : η) (journal : Journal) :
    m.checkedStep host journal = .ok (m.step host journal) := by
  obtain ⟨cpu, bus, clock, batteryFile⟩ := m
  have hlasting : Display.Lasting (Display.Within (Display.lastLine + 1)) :=
    Display.lasting_within (by decide)
  have hsimulation := Bus.simulation_checked hlasting himage
  obtain ⟨hwaited, hserved⟩ := hsimulation.service (s := ⟨cpu, .ok ⟨bus, journal⟩⟩)
    (t := ⟨cpu, ⟨bus, journal⟩⟩) ⟨rfl, rfl, hm.bus⟩
  obtain ⟨hspent, hcpu, hmemory, hbus⟩ := hsimulation.step hserved
  unfold checkedStep step
  simp only
  rw [hwaited, hspent, hcpu, hmemory, Checked.ok_bind,
    Bus.checkedAdvance_eq (by decide) (by decide) hbus, Checked.ok_bind]
  simp only [Frame.checkedPresent_eq, Checked.pure_eq, Checked.ok_bind]
  split
  · rfl
  · rfl

/-- A run of such a machine does not trap, and ends with such a machine. -/
lemma checkedSteps_eq (himage : Header.parse image = .ok m₀.bus.cartridge.header)
    (hm : m.WellFormed (Display.Within (Display.lastLine + 1)) m₀) (n : Nat) (host : η)
    (journal : Journal) :
    m.checkedSteps n host journal = .ok (m.steps n host journal) ∧
      (m.steps n host journal).1.WellFormed (Display.Within (Display.lastLine + 1)) m₀ := by
  induction n generalizing m host journal with
  | zero => exact ⟨rfl, hm⟩
  | succ n ih =>
    have hstep := hm.step (Display.lasting_within (by decide)) host journal
    obtain ⟨hrun, hend⟩ := ih hstep (m.step host journal).host (m.step host journal).journal
    refine ⟨?_, hend⟩
    rw [checkedSteps, checkedStep_eq himage hm, Checked.ok_bind, hrun]
    rfl

/-- Whatever is done to the machine does not trap. -/
structure TrapFree (m : Machine) : Prop where
  /-- Steps, with any host. -/
  step : ∀ {η : Type} [Host η] (host : η) (journal : Journal),
    m.checkedStep host journal = .ok (m.step host journal)
  read : ∀ addr, m.bus.checkedRead addr = .ok (m.bus.read addr)
  write : ∀ addr v, m.bus.checkedWrite addr v = .ok (m.bus.write addr v)
  /-- The selection of banks, of a program or in a saved state. -/
  select : ∀ rom ram, m.cartridge.mapper.banks.checkedSelect rom ram =
    .ok (m.cartridge.mapper.banks.select rom ram)
  /-- The counter of the joypad in a saved state. -/
  setPhase : ∀ v, m.bus.joypad.checkedSetPhase v =
    .ok { m.bus.joypad with phase := v % m.bus.joypad.period }

/-- A machine whose display is at most one line behind the frame does not trap. -/
lemma trapFree (himage : Header.parse image = .ok m₀.bus.cartridge.header)
    (hm : m.WellFormed (Display.Within (Display.lastLine + 1)) m₀) : m.TrapFree :=
  have hmasked := hm.bus.cartridge.mapper.masked_banks himage
  { step := checkedStep_eq himage hm
    read := Bus.checkedRead_eq m.bus
    write := Bus.checkedWrite_eq hmasked
    select := Banks.checkedSelect_eq hmasked
    setPhase := Joypad.checkedSetPhase_eq hm.bus.joypad }

end Machine

namespace Console

variable {η : Type} [Host η] {c : Console η}

/-- No machine of a console with a cartridge traps, now or after any number of steps with any
host. -/
theorem loaded_trapFree (hc : Loaded c) : ∃ m, c.machine = some m ∧
    ∀ {θ : Type} [Host θ] (host : θ) (journal : Journal) (n : Nat),
      m.checkedSteps n host journal = .ok (m.steps n host journal) ∧
      (m.steps n host journal).1.TrapFree := by
  obtain ⟨image, boot, config, m₀, hbuild, -, m, hm, hwell⟩ :=
    hc.built (Display.lasting_within (by decide)) fun _ hd => hd.within_succ
  obtain ⟨-, header, himage, rfl⟩ := Machine.build_eq_ok_iff.mp hbuild
  refine ⟨m, hm, fun host journal n => ?_⟩
  obtain ⟨hrun, hend⟩ := Machine.checkedSteps_eq himage hwell n host journal
  exact ⟨hrun, Machine.trapFree himage hend⟩

/-- The machine with the small cartridge takes its first thousand steps. -/
theorem loaded_trapFree_plainImage :
    let c := (unused.load Cartridge.plainImage).2
    Loaded c ∧ ∃ m, c.machine = some m ∧
      m.checkedSteps 1000 c.host c.journal = .ok (m.steps 1000 c.host c.journal) ∧
      m.TrapFree := by
  intro c
  have hc : Loaded c := .load Cartridge.plainImage none none (load_plainImage unused).1
  obtain ⟨m, hm, htrapFree⟩ := loaded_trapFree hc
  exact ⟨hc, m, hm, (htrapFree c.host c.journal 1000).1, (htrapFree c.host c.journal 0).2⟩

end Console

end Handheld
