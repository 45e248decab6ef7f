import Handheld.Proofs.Breakpoint
import Handheld.Proofs.Closure
import Handheld.Proofs.Core.MacroStep
import Mathlib.Data.List.FinRange

/-!
# What a machine says to its surroundings

`Observed` is a host that answers as another one does and writes down what it is asked and told;
`Observed.agree` says that this changes nothing for the machine.  `Observed.screen` is the part of
the list that has to do with the screen, and `Observed.signals` counts the complete frames in it.

A step of a machine has two parts.  `Machine.executed` is the bus after the processor has done its
part, `Machine.drawn` is what the display does while the cost of this passes, and `Machine.pressed`
is whether a button is pressed meanwhile.  The main statement is `Machine.screen_step`: the screen
hears of nothing but the picture of the display, if this has completed a frame, and of this picture
pixel by pixel (`Frame.calls`).
-/

namespace Handheld

/-- What a host is asked or told. -/
inductive Call
  | pixel (shade : UInt8) (x y : Nat)
  /-- The frame is complete. -/
  | frame
  | exchange (out : UInt8)
  | buttons
  | goOn
  deriving DecidableEq

/-- Whether a call has to do with the screen. -/
def Call.forScreen : Call → Bool
  | pixel _ _ _ | frame => true
  | exchange _ | buttons | goOn => false

/-- A host with the list of its calls, the first call first. -/
structure Observed (η : Type) where
  host : η
  calls : List Call := []

namespace Observed

variable {η : Type} [Host η]

instance : Host (Observed η) where
  putPixel o shade x y := ⟨Host.putPixel o.host shade x y, o.calls ++ [.pixel shade x y]⟩
  frameSync o := ⟨Host.frameSync o.host, o.calls ++ [.frame]⟩
  exchange o out :=
    ((Host.exchange o.host out).1, ⟨(Host.exchange o.host out).2, o.calls ++ [.exchange out]⟩)
  pollButtons o :=
    ((Host.pollButtons o.host).1, ⟨(Host.pollButtons o.host).2, o.calls ++ [.buttons]⟩)
  pollContinue o :=
    ((Host.pollContinue o.host).1, ⟨(Host.pollContinue o.host).2, o.calls ++ [.goOn]⟩)

/-- Writing down the calls changes nothing. -/
theorem agree : Host.Agree fun (o : Observed η) (host : η) => o.host = host where
  putPixel := by
    rintro o _ shade x y rfl
    rfl
  frameSync := by
    rintro o _ rfl
    rfl
  exchange_fst := by
    rintro o _ v rfl
    rfl
  exchange_snd := by
    rintro o _ v rfl
    rfl
  pollButtons_fst := by
    rintro o _ rfl
    rfl
  pollButtons_snd := by
    rintro o _ rfl
    rfl

/-- The calls that have to do with the screen. -/
def screen (o : Observed η) : List Call := o.calls.filter Call.forScreen

/-- How many frames were complete. -/
def signals (o : Observed η) : Nat := o.calls.count .frame

omit [Host η] in
/-- The complete frames are counted among the calls for the screen. -/
lemma signals_eq (o : Observed η) : o.signals = o.screen.count .frame :=
  (List.count_filter rfl).symm

/-! ### Silence -/

/-- Asking for the buttons has nothing to do with the screen. -/
lemma screen_poll (n : Nat) (j : Joypad) (o : Observed η) (fell : Bool) :
    (Joypad.poll n j o fell).2.1.screen = o.screen := by
  induction n generalizing j o fell with
  | zero => rfl
  | succ n ih =>
    have hbuttons : (Host.pollButtons o).2.screen = o.screen := by
      simp [screen, Host.pollButtons, Call.forScreen]
    exact (ih _ _ _).trans hbuttons

/-- The serial link has nothing to do with the screen. -/
lemma screen_serial (s : Serial) (cycles : UInt32) (o : Observed η) :
    (s.advance cycles o).2.1.screen = o.screen := by
  unfold Serial.advance
  split
  · simp only
    split
    · rfl
    · simp [screen, Host.exchange, Call.forScreen]
  · rfl

/-- While time passes on a bus, the screen hears of nothing. -/
lemma screen_advance (b : Bus) (cycles : UInt32) (o : Observed η) :
    (b.advance cycles o).host.screen = o.screen := by
  have hserial := screen_serial b.serial cycles (b.joypad.advance cycles o).2.1
  exact hserial.trans (screen_poll _ _ _ _)

/-! ### Pictures -/

omit [Host η] in
/-- A loop whose rounds make calls makes the calls of the rounds one after another. -/
lemma calls_foldl {n : Nat} {f : Observed η → Fin n → Observed η} {g : Fin n → List Call}
    (h : ∀ o i, (f o i).calls = o.calls ++ g i) (o : Observed η) :
    (Fin.foldl n f o).calls = o.calls ++ (List.ofFn g).flatten := by
  induction n generalizing o with
  | zero => simp
  | succ n ih =>
    rw [Fin.foldl_succ, ih fun o i => h o i.succ, h, List.ofFn_succ, List.flatten_cons,
      List.append_assoc]

end Observed

namespace Frame

/-- The pixels of a picture, line by line and from left to right, as they are handed over. -/
def pixels (f : Frame) : List Call :=
  List.ofFn fun i : Fin (144 * 160) =>
    .pixel ((f.get i.divNat).get i.modNat) i.modNat.val i.divNat.val

/-- What the screen hears of a picture: its pixels, and that it is complete. -/
def calls (f : Frame) : List Call := f.pixels ++ [.frame]

/-- A picture has as many pixels as the screen. -/
lemma length_pixels (f : Frame) : f.pixels.length = screenHeight * screenWidth :=
  List.length_ofFn

/-- The pixels of a picture line by line. -/
lemma pixels_eq_flatten (f : Frame) : f.pixels =
    (List.ofFn fun y : Fin 144 =>
      List.ofFn fun x : Fin 160 => .pixel ((f.get y).get x) x.val y.val).flatten := by
  rw [pixels, List.ofFn_mul]
  congr 2
  funext y
  congr 1
  funext x
  have hdiv : (y.val * 160 + x.val) / 160 = y.val := by omega
  have hmod : (y.val * 160 + x.val) % 160 = x.val := by omega
  simp only [Fin.divNat, Fin.modNat, hdiv, hmod]

/-- No pixel says that the picture is complete. -/
lemma count_frame_calls (f : Frame) : f.calls.count .frame = 1 := by
  have hpixels : f.pixels.count .frame = 0 := by
    rw [List.count_eq_zero, pixels, List.mem_ofFn]
    rintro ⟨i, h⟩
    cases h
  rw [calls, List.count_append, hpixels, List.count_singleton_self]

/-- Everything that is said of a picture has to do with the screen. -/
lemma filter_calls (f : Frame) : f.calls.filter Call.forScreen = f.calls := by
  rw [List.filter_eq_self, calls, pixels]
  intro c hc
  rcases List.mem_append.mp hc with hpixel | hframe
  · obtain ⟨i, rfl⟩ := List.mem_ofFn.mp hpixel
    rfl
  · rw [List.mem_singleton.mp hframe]
    rfl

/-- A picture is handed over pixel by pixel. -/
lemma screen_present {η : Type} [Host η] (f : Frame) (o : Observed η) :
    (f.present o).screen = o.screen ++ f.calls := by
  have hrow (y : Fin 144) (o : Observed η) :
      (Fin.foldl 160 (fun o x => Host.putPixel o ((f.get y).get x) x.val y.val) o).calls =
        o.calls ++ List.ofFn fun x : Fin 160 => .pixel ((f.get y).get x) x.val y.val := by
    have hpixel (o : Observed η) (x : Fin 160) :
        (Host.putPixel o ((f.get y).get x) x.val y.val).calls =
          o.calls ++ [.pixel ((f.get y).get x) x.val y.val] := rfl
    rw [Observed.calls_foldl hpixel, List.ofFn_eq_map, List.ofFn_eq_map, ← List.flatMap_def,
      List.map_eq_flatMap]
  have hrows := Observed.calls_foldl (fun o y => hrow y o) o
  rw [← pixels_eq_flatten] at hrows
  have hcalls : (f.present o).calls = o.calls ++ f.calls := by
    rw [calls, ← List.append_assoc, ← hrows]
    rfl
  rw [Observed.screen, hcalls, List.filter_append, filter_calls]
  rfl

end Frame

/-! ### Steps -/

namespace Machine

variable {η : Type} [Host η]

/-- The bus after the processor has done its part of a step. -/
def executed (m : Machine) (journal : Journal) : Bus := (m.core journal).macroStep.memory.bus

/-- The processor keeps the bus well-formed in its part of a step. -/
theorem WellFormed.executed {P : Display → Prop} {m m₀ : Machine} (hP : Display.Lasting P)
    (hm : m.WellFormed P m₀) (journal : Journal) :
    (m.executed journal).WellFormed P m₀.bus := by
  have hclosed := Bus.closed_wellFormed hP m₀.bus
  exact hclosed.step (hclosed.service (s := m.core journal) hm.bus)

/-- What the display does in the rest of a step. -/
def drawn (m : Machine) (journal : Journal) : Display.Progress :=
  (m.executed journal).display.advance (m.core journal).macroCost (m.executed journal).videoRam
    (m.executed journal).spriteRam

/-- A step lets time pass for everything that the processor has left behind. -/
lemma step_eq (m : Machine) (host : η) (journal : Journal) :
    let a := (m.executed journal).advance (m.core journal).macroCost host
    (m.step host journal).cycles = (m.core journal).macroCost ∧
    (m.step host journal).machine.bus = a.bus ∧
    (m.step host journal).machine.clock = m.clock.tick (m.core journal).macroCost ∧
    (m.step host journal).host =
      if (m.drawn journal).frameDone then a.bus.display.frame.present a.host else a.host := by
  obtain ⟨cpu, bus, clock, batteryFile⟩ := m
  simp only [step, executed, drawn, core, Core.macroStep, Core.macroCost]
  exact ⟨trivial, trivial, trivial, rfl⟩

/-- Whether a button that a program has selected is pressed while a step passes. -/
def pressed (m : Machine) (host : η) (journal : Journal) : Bool :=
  ((m.executed journal).advance (m.core journal).macroCost host).pressed

/-- After a step the processor is as the macro-step has left it, except that a button ends stop. -/
lemma cpu_step (m : Machine) (host : η) (journal : Journal) :
    (m.step host journal).machine.cpu = { (m.core journal).macroStep.cpu with
      stopped := (m.core journal).macroStep.cpu.stopped && !m.pressed host journal } := by
  have hcpu : (m.step host journal).machine.cpu =
      if m.pressed host journal then { (m.core journal).macroStep.cpu with stopped := false }
      else (m.core journal).macroStep.cpu := by
    obtain ⟨cpu, bus, clock, batteryFile⟩ := m
    rfl
  rw [hcpu]
  cases m.pressed host journal with
  | false => simp
  | true => simp

/-- A halted processor that nothing wakes leaves the bus as it is, and lets a little time pass. -/
lemma drawn_of_halted {m : Machine} (hhalted : m.cpu.halted = true)
    (hpending : m.bus.interrupts.pending.first? = none) (journal : Journal) :
    m.drawn journal = m.bus.display.advance idleCycles m.bus.videoRam m.bus.spriteRam := by
  obtain ⟨hstep, hcost⟩ := Core.idle_of_halted (s := m.core journal) hhalted hpending
  rw [drawn, executed, hstep, hcost]
  rfl

/-- The display after a step. -/
lemma display_step (m : Machine) (host : η) (journal : Journal) :
    (m.step host journal).machine.bus.display = (m.drawn journal).display := by
  obtain ⟨-, hbus, -⟩ := m.step_eq host journal
  rw [hbus]
  exact Bus.display_transfer _ _

omit [Host η] in
/-- As long as no interrupt is enabled, none is pending. -/
lemma not_pending_of_enabled {m : Machine} (h : m.bus.interrupts.enabled = {}) :
    m.bus.interrupts.pending.first? = none := by
  rw [InterruptController.pending, h]
  rfl

/-- Only the processor changes which interrupts are enabled. -/
lemma enabled_step (m : Machine) (host : η) (journal : Journal) :
    (m.step host journal).machine.bus.interrupts.enabled =
      (m.executed journal).interrupts.enabled := by
  obtain ⟨-, hbus, -⟩ := m.step_eq host journal
  rw [hbus, Bus.advance, Bus.interrupts_transfer]
  rfl

/-- In a step the screen hears of the picture of the display, if a frame was completed, and of
nothing otherwise. -/
theorem screen_step (m : Machine) (o : Observed η) (journal : Journal) :
    (m.step o journal).host.screen = o.screen ++
      if (m.drawn journal).frameDone then (m.step o journal).machine.bus.display.frame.calls
      else [] := by
  obtain ⟨-, hbus, -, hhost⟩ := m.step_eq o journal
  rw [hhost, hbus]
  split
  · rw [Frame.screen_present, Observed.screen_advance]
  · rw [Observed.screen_advance, List.append_nil]

/-- A step signals a frame if one was completed. -/
lemma signals_step (m : Machine) (o : Observed η) (journal : Journal) :
    (m.step o journal).host.signals =
      o.signals + if (m.drawn journal).frameDone then 1 else 0 := by
  rw [Observed.signals_eq, screen_step, List.count_append, ← Observed.signals_eq]
  split
  · rw [Frame.count_frame_calls]
  · rw [List.count_nil]

end Machine

namespace Console

/-- The surroundings after a step of the console. -/
lemma host_stepOnce {η : Type} [Host η] {c : Console η} {m : Machine} (hm : c.machine = some m) :
    c.stepOnce.2.host = (m.step c.host c.journal).host := by
  obtain ⟨config, machine, host, disk, journal⟩ := c
  obtain rfl : machine = some m := hm
  rfl

/-- A console that nobody has used yet, and whose calls are written down. -/
def watched : Console (Observed Solitude) := { host := { host := {} } }

end Console

end Handheld
