import Handheld.Proofs.Addresses
import Handheld.Proofs.Calls
import Handheld.Proofs.FrameCounter
import Mathlib.Data.Nat.ModEq

/-!
# Clock, display and screen in lockstep

The clock of a machine counts all cycles, and computes from their number which line of which frame
it is.  The display goes through its modes, and the screen is told of each frame that it completes.
As long as the display stays on, all three agree.

`Display.Running` says that a display is on and where it is in its frame; it survives every write
that leaves the display on (`Running.write`), and time moves the place (`Running.advance`).
`Machine.InStep` is the agreement of a machine with its surroundings, and `InStep.step` says that a
step keeps it.  The main statement is `Console.Lit.lockstep`, for all consoles whose display has
stayed on since the cartridge was inserted.
-/

namespace Handheld

/-! ### The display -/

namespace Display

variable {d : Display} {pos : Nat}

/-- A display that is on, at a place of its frame. -/
structure Running (pos : Nat) (d : Display) : Prop where
  timed : d.Timed
  enabled : d.enabled = true
  position : d.position = pos

/-- After the start-up program the display begins a frame. -/
lemma running_postBoot : postBoot.Running 0 :=
  ⟨Reached.postBoot.timed, by decide, by decide⟩

namespace Running

/-- A mode is a part of a line. -/
lemma position_eq (hd : d.Running pos) :
    ∃ dots, dots < lineCycles ∧ pos = lineCycles * d.line.toNat + dots := by
  have hdots : d.dots.toNat < d.mode.duration.toNat :=
    UInt32.lt_iff_toNat_lt.mp hd.timed.wellFormed.dots
  have hmode : d.mode.offset + d.mode.duration.toNat ≤ lineCycles := by
    cases d.mode <;> decide
  refine ⟨d.mode.offset + d.dots.toNat, by omega, ?_⟩
  rw [← hd.position, Display.position, start, Nat.add_assoc]

/-- The line is the quotient of the place by the length of a line. -/
lemma line_eq (hd : d.Running pos) : pos / lineCycles = d.line.toNat := by
  obtain ⟨dots, hdots, rfl⟩ := hd.position_eq
  rw [Nat.mul_add_div (by decide), Nat.div_eq_of_lt hdots, Nat.add_zero]

/-- A write that does not switch the display off leaves it where it is. -/
theorem write (hd : d.Running pos) {r v : UInt8} (hkeep : r.toNat = 0x40 → Byte.bit v 7 = true) :
    (d.write r v).Running pos := by
  have htimed := hd.timed.write r v
  by_cases hr : r.toNat = 0x40
  · have hcontrol : d.write r v = { d with control := v } := by
      have hnew : ({ d with control := v } : Display).enabled = true := hkeep hr
      simp only [Display.write, hr, writeControl, hd.enabled, hnew]
    rw [hcontrol] at htimed ⊢
    exact ⟨htimed, hkeep hr, hd.position⟩
  · obtain ⟨henabled, hmode, hline, hdots, -⟩ := Timed.write_of_ne (d := d) hr v
    refine ⟨htimed, henabled.trans hd.enabled, ?_⟩
    rw [Display.position, start, hmode, hline, hdots]
    exact hd.position

/-- Time moves the display through its frame, and a frame is completed at the end. -/
theorem advance (hd : d.Running pos) {cycles : UInt32} (hcycles : cycles ≤ 48)
    (video : Vector UInt8 0x2000) (oam : Vector UInt8 0xA0) :
    (d.advance cycles video oam).display.Running ((pos + cycles.toNat) % frameCycles) ∧
      ((d.advance cycles video oam).frameDone = true ↔ frameCycles ≤ pos + cycles.toNat) := by
  have hdots : d.dots.toNat < d.mode.duration.toNat :=
    UInt32.lt_iff_toNat_lt.mp hd.timed.wellFormed.dots
  obtain ⟨-, hduration⟩ := d.mode.duration_bounds
  have hcycles' : cycles.toNat ≤ 48 := UInt32.le_iff_toNat_le.mp hcycles
  have hfits : d.dots.toNat + cycles.toNat < UInt32.size := by
    change _ < 4294967296
    omega
  obtain ⟨hposition, hdone, -⟩ := hd.timed.advance_counts hd.enabled hfits video oam
  rw [hd.position] at hposition hdone
  refine ⟨⟨hd.timed.advance cycles video oam, ?_, hposition⟩, hdone⟩
  have hcontrol := control_run { display := d } video oam (d.dots + cycles)
  rw [Display.advance, if_pos hd.enabled, Display.enabled, hcontrol]
  exact hd.enabled

end Running

end Display

/-! ### Machines -/

/-- The address of the register that switches the display. -/
def displayControl : UInt16 := 0xFF40

/-- Writing something to an address does not switch the display off. -/
def KeepsLit (w : UInt16 × UInt8) : Prop := w.1 = displayControl → Byte.bit w.2 7 = true

/-- A write that does not switch the display off leaves it where it is in its frame. -/
lemma Bus.running_write {b : Bus} {pos : Nat} {addr : UInt16} {v : UInt8}
    (hb : b.display.Running pos) (hkeep : KeepsLit (addr, v)) :
    (b.write addr v).display.Running pos := by
  unfold Bus.write
  split
  case h_12 r hlocation =>
    obtain ⟨hhigh, rfl⟩ := Location.ofAddress_eq_display hlocation
    refine hb.write fun hr => hkeep ?_
    rw [UInt16.toNat_toUInt8] at hr
    have hlt := addr.toNat_lt
    apply UInt16.toNat_inj.mp
    change addr.toNat = 0xFF40
    omega
  case h_2 | h_5 | h_13 =>
    split
    · exact hb
    · exact hb
  all_goals exact hb

namespace Machine

variable {η : Type} [Host η] {m : Machine} {pos n : Nat} {journal : Journal}

/-- The processor leaves the display where it is in its frame, if it does not switch it off. -/
lemma running_executed (hm : m.bus.display.Running pos)
    (hkeep : ∀ w ∈ (m.core journal).writes, KeepsLit w) :
    (m.executed journal).display.Running pos :=
  Core.macroStep_of_writes (P := fun b : ReportingBus => b.bus.display.Running pos)
    (fun _ hb => hb) (fun _ _ hallowed hb => Bus.running_write hb hallowed) (fun _ hb => hb)
    (fun _ hb => hb) hkeep hm

/-- A machine whose clock, display and screen agree; the screen has been told of `n` frames before
the clock was started. -/
structure InStep (n : Nat) (m : Machine) (o : Observed η) : Prop where
  running : m.bus.display.Running (m.clock.cycles.toNat % frameCycles)
  signals : o.signals = n + m.clock.frames

/-- The clock counts a step, as long as it does not start again from zero. -/
lemma cycles_step {host : η}
    (hfits : m.clock.cycles.toNat + (m.step host journal).cycles.toNat < 2 ^ 64) :
    (m.step host journal).machine.clock.cycles.toNat =
      m.clock.cycles.toNat + (m.step host journal).cycles.toNat := by
  obtain ⟨hcycles, -, hclock, -⟩ := m.step_eq host journal
  rw [hclock, ← hcycles, Clock.tick, UInt64.toNat_add, UInt32.toNat_toUInt64,
    Nat.mod_eq_of_lt hfits]

/-- What happens to the number of whole frames when less than a frame passes. -/
lemma frames_add {cycles cost : Nat} (hcost : cost < frameCycles) :
    (cycles + cost) / frameCycles =
      cycles / frameCycles + if frameCycles ≤ cycles % frameCycles + cost then 1 else 0 := by
  have hpos : 0 < frameCycles := by decide
  rw [Nat.add_div hpos, Nat.div_eq_of_lt hcost, Nat.mod_eq_of_lt hcost, Nat.add_zero]

/-- A step that does not switch the display off keeps clock, display and screen together. -/
theorem InStep.step {o : Observed η} (h : m.InStep n o)
    (hkeep : ∀ w ∈ (m.core journal).writes, KeepsLit w)
    (hfits : m.clock.cycles.toNat + (m.step o journal).cycles.toNat < 2 ^ 64) :
    (m.step o journal).machine.InStep n (m.step o journal).host := by
  obtain ⟨hcycles, -⟩ := m.step_eq o journal
  have hcost : (m.step o journal).cycles ≤ 48 := by
    rw [hcycles]
    exact Core.macroCost_le _
  have hcost' : (m.step o journal).cycles.toNat < frameCycles :=
    Nat.lt_of_le_of_lt (UInt32.le_iff_toNat_le.mp hcost) (by decide)
  obtain ⟨hrunning, hdone⟩ := (running_executed h.running hkeep).advance hcost
    (m.executed journal).videoRam (m.executed journal).spriteRam
  rw [hcycles] at hrunning hdone
  constructor
  · rw [display_step, cycles_step hfits, hcycles]
    rw [Nat.mod_add_mod] at hrunning
    exact hrunning
  · have hframe : (m.drawn journal).frameDone = true ↔ frameCycles ≤
        m.clock.cycles.toNat % frameCycles + (m.step o journal).cycles.toNat := by
      rw [hcycles]
      exact hdone
    simp only [signals_step, h.signals, Clock.frames, cycles_step hfits, frames_add hcost', hframe]
    rw [Nat.add_assoc]

omit [Host η] in
/-- Only the display and the clock matter, and what the screen was told. -/
lemma InStep.congr {o o' : Observed η} {m' : Machine} (h : m.InStep n o)
    (hdisplay : m'.bus.display = m.bus.display) (hclock : m'.clock = m.clock)
    (hcalls : o'.signals = o.signals) : m'.InStep n o' := by
  refine ⟨?_, ?_⟩
  · rw [hdisplay, hclock]
    exact h.running
  · rw [hcalls, hclock]
    exact h.signals

/-- Storing a value into a register reaches neither the display nor the clock. -/
lemma apart_setRegister {r : RegisterId} {v : UInt32} {m' : Machine}
    (h : m.setRegister? r v = some m') :
    m'.bus.display = m.bus.display ∧ m'.clock = m.clock := by
  rcases setRegister_cases h with ⟨cpu, -, rfl⟩ | rfl | rfl
  · exact ⟨rfl, rfl⟩
  · exact ⟨rfl, rfl⟩
  · exact ⟨rfl, rfl⟩

/-- A machine whose processor is halted, and that no interrupt can wake. -/
structure Asleep (m : Machine) : Prop where
  halted : m.cpu.halted = true
  enabled : m.bus.interrupts.enabled = {}

/-- A machine that sleeps goes on sleeping, four cycles at a time, and writes nothing. -/
lemma Asleep.step (hm : m.Asleep) (host : η) (journal : Journal) :
    (m.step host journal).machine.Asleep ∧ (m.step host journal).cycles.toNat = 4 ∧
      (m.core journal).writes = [] := by
  have hpending := not_pending_of_enabled hm.enabled
  obtain ⟨hidle, hcost⟩ := Core.idle_of_halted (s := m.core journal) hm.halted hpending
  obtain ⟨hcycles, -⟩ := m.step_eq host journal
  refine ⟨⟨?_, ?_⟩, ?_, Core.writes_of_halted hm.halted hpending⟩
  · rw [cpu_step, hidle]
    exact hm.halted
  · rw [enabled_step, executed, hidle]
    exact hm.enabled
  · rw [hcycles, hcost]
    rfl

end Machine

/-! ### Consoles -/

namespace Console

variable {η : Type} [Host η]

/-- The consoles whose display has stayed on since a cartridge was inserted without a start-up
program, and whose clock has not started again from zero.  The screen had been told of `n` frames
before. -/
inductive Lit : Nat → Console (Observed η) → Prop
  | load {c : Console (Observed η)} (image : Array UInt8) (file : Option String)
      (h : (c.load image none file).1 = .ok ()) : Lit c.host.signals (c.load image none file).2
  | step {n : Nat} {c : Console (Observed η)} {m : Machine} (hm : c.machine = some m)
      (hkeep : ∀ w ∈ (m.core c.journal).writes, KeepsLit w)
      (hfits : m.clock.cycles.toNat + (m.step c.host c.journal).cycles.toNat < 2 ^ 64) :
      Lit n c → Lit n c.stepOnce.2
  | write {n : Nat} {c : Console (Observed η)} (addr : UInt16) (v : UInt8)
      (hkeep : KeepsLit (addr, v)) : Lit n c → Lit n (c.write addr v)
  | setRegister {n : Nat} {c : Console (Observed η)} (r : RegisterId) (v : UInt32) :
      Lit n c → Lit n (c.setRegister r v).2
  | importBattery {n : Nat} {c c' : Console (Observed η)} (bytes : List UInt8)
      (h : c.importBattery bytes = .ok c') : Lit n c → Lit n c'
  /-- The host is asked whether to go on. -/
  | ask {n : Nat} {c : Console (Observed η)} :
      Lit n c → Lit n { c with host := (Host.pollContinue c.host).2 }
  /-- The disk and the journal change. -/
  | outside {n : Nat} {c : Console (Observed η)} (disk : Disk) (journal : Journal) :
      Lit n c → Lit n { c with disk := disk, journal := journal }

namespace Lit

variable {n : Nat} {c : Console (Observed η)}

omit [Host η] in
/-- A cartridge that has just been inserted without a start-up program. -/
lemma inStep_load {c : Console (Observed η)} {image : Array UInt8} {file : Option String}
    (h : (c.load image none file).1 = .ok ()) :
    ∃ m, (c.load image none file).2.machine = some m ∧
      m.InStep c.host.signals (c.load image none file).2.host := by
  obtain ⟨m₀, ram, hbuild, -, hmachine, -, hhost⟩ := load_eq h
  obtain ⟨-, header, -, rfl⟩ := Machine.build_eq_ok_iff.mp hbuild
  have hzero : (⟨0⟩ : Clock).frames = 0 := by decide
  refine ⟨_, hmachine, Display.running_postBoot, ?_⟩
  rw [hhost]
  change c.host.signals = c.host.signals + (⟨0⟩ : Clock).frames
  rw [hzero, Nat.add_zero]

/-- Clock, display and screen have stayed together. -/
lemma inStep (hc : Lit n c) : ∃ m, c.machine = some m ∧ m.InStep n c.host := by
  induction hc with
  | load image file h => exact inStep_load h
  | step hm hkeep hfits _ ih =>
    obtain ⟨m, hm', h⟩ := ih
    obtain rfl := Option.some.inj (hm.symm.trans hm')
    refine ⟨_, machine_stepOnce hm, ?_⟩
    rw [host_stepOnce hm]
    exact h.step hkeep hfits
  | write addr v hkeep _ ih =>
    obtain ⟨m, hm, h⟩ := ih
    obtain ⟨journal, hwrite⟩ := write_eq hm addr v
    rw [hwrite]
    exact ⟨_, rfl, Bus.running_write h.running hkeep, h.signals⟩
  | @setRegister n c r v _ ih =>
    obtain ⟨m, hm, h⟩ := ih
    simp only [Console.setRegister, hm, Option.bind_some]
    cases hset : m.setRegister? r v with
    | none => exact ⟨m, hm, h⟩
    | some m' =>
      obtain ⟨hdisplay, hclock⟩ := Machine.apart_setRegister hset
      exact ⟨m', rfl, h.congr hdisplay hclock rfl⟩
  | importBattery bytes himport _ ih =>
    obtain ⟨m, hm, h⟩ := ih
    simp only [Console.importBattery, requireMachine, hm, bind, Except.bind] at himport
    split at himport
    · obtain rfl := Except.ok.inj himport
      exact ⟨_, rfl, h.congr rfl rfl rfl⟩
    · cases himport
  | ask _ ih =>
    obtain ⟨m, hm, h⟩ := ih
    refine ⟨m, hm, h.congr rfl rfl ?_⟩
    simp [Observed.signals, Host.pollContinue]
  | outside disk journal _ ih => exact ih

/-- As long as the display stays on, the line that the clock computes is the line of the display,
the display is as far in its frame as the clock, and the screen has been told of as many frames as
the clock has counted since the cartridge was inserted. -/
theorem lockstep (hc : Lit n c) : ∃ m, c.machine = some m ∧
    m.clock.scanline = m.bus.display.line.toNat ∧
    m.bus.display.position ≡ m.clock.cycles.toNat [MOD frameCycles] ∧
    c.host.signals = n + m.clock.frames := by
  obtain ⟨m, hm, hrunning, hsignals⟩ := hc.inStep
  refine ⟨m, hm, hrunning.line_eq, ?_, hsignals⟩
  rw [hrunning.position]
  exact Nat.mod_modEq _ _

/-- While a machine sleeps its clock goes on, and the display stays on. -/
lemma stepped_of_asleep {m : Machine} (hc : Lit n c) (hm : c.machine = some m) (hasleep : m.Asleep)
    (k : Nat) (hfits : m.clock.cycles.toNat + 4 * k < 2 ^ 64) :
    Lit n (stepped k c) ∧ ∃ m', (stepped k c).machine = some m' ∧
      m'.clock.cycles.toNat = m.clock.cycles.toNat + 4 * k := by
  induction k generalizing c m with
  | zero => exact ⟨hc, m, hm, rfl⟩
  | succ k ih =>
    obtain ⟨hnext, hcost, hwrites⟩ := hasleep.step c.host c.journal
    have hclock : (m.step c.host c.journal).machine.clock.cycles.toNat =
        m.clock.cycles.toNat + (m.step c.host c.journal).cycles.toNat :=
      Machine.cycles_step (by omega)
    have hlit : Lit n c.stepOnce.2 := by
      refine hc.step hm ?_ (by omega)
      rw [hwrites]
      exact fun w hw => absurd hw List.not_mem_nil
    obtain ⟨hlit', m', hm', hcount⟩ := ih hlit (machine_stepOnce hm) hnext (by omega)
    exact ⟨hlit', m', hm', by omega⟩

end Lit

/-- The console with its processor halted. -/
def halted {θ : Type} (c : Console θ) : Console θ := (c.setRegister .halt 1).2

omit [Host η] in
/-- Halting a console changes nothing of its machine but the processor. -/
lemma machine_halted {c : Console η} {m : Machine} (hm : c.machine = some m) :
    c.halted.machine = some { m with cpu := { m.cpu with halted := true } } :=
  machine_setRegister hm rfl

/-- A console with the small cartridge whose processor has been halted. -/
def resting : Console (Observed Solitude) := (watched.load Cartridge.plainImage).2.halted

namespace Lit

/-- Halting a console leaves the display on. -/
lemma halted {n : Nat} {c : Console (Observed η)} (hc : Lit n c) : Lit n c.halted :=
  hc.setRegister .halt 1

/-- In the console with the halted processor the display is on, and nothing wakes the processor. -/
lemma lit_resting : Lit 0 resting ∧
    ∃ m, resting.machine = some m ∧ m.Asleep ∧ m.clock.cycles.toNat = 0 := by
  obtain ⟨hload, header, hm⟩ := load_plainImage watched
  have hlit : Lit 0 (watched.load Cartridge.plainImage).2 := .load Cartridge.plainImage none hload
  exact ⟨hlit.halted, _, machine_halted hm, ⟨rfl, rfl⟩, rfl⟩

/-- What `lockstep` says about the console with the halted processor after twenty thousand steps: a
frame is complete, and clock and display are in the same line of the next one. -/
theorem lockstep_resting :
    ∃ m, (stepped 20000 resting).machine = some m ∧ m.clock.cycles.toNat = 80000 ∧
      m.clock.scanline = 21 ∧ m.bus.display.line.toNat = 21 ∧
      m.bus.display.position ≡ 80000 [MOD frameCycles] ∧
      (stepped 20000 resting).host.signals = 1 := by
  obtain ⟨hlit, m₀, hm₀, hasleep, hzero⟩ := lit_resting
  obtain ⟨hlit', m, hm, hcycles⟩ :=
    hlit.stepped_of_asleep hm₀ hasleep 20000 (by rw [hzero]; decide)
  obtain ⟨m', hm', hline, hposition, hsignals⟩ := lockstep hlit'
  obtain rfl := Option.some.inj (hm.symm.trans hm')
  rw [hzero] at hcycles
  have hcount : m.clock.cycles.toNat = 80000 := hcycles
  have hscanline : m.clock.scanline = 21 := by
    rw [Clock.scanline, hcount]
    decide
  rw [hcount] at hposition
  refine ⟨m, hm, hcount, hscanline, hline.symm.trans hscanline, hposition, ?_⟩
  rw [hsignals, Clock.frames, hcount]
  decide

end Lit

end Console

end Handheld
