import Handheld.Machine
import Handheld.Proofs.Core.Simulation

/-!
# Surroundings that give the same answers

A machine hears of its surroundings only through the answers of its host, and never looks at the
journal or at the file of its battery.  `Host.Agree` is a relation between two kinds of hosts that
give the same answers to the same requests, and keep giving them.  The main statement is
`Machine.step_agree`: two machines that differ at most in the files of their batteries, with hosts
that agree, take the same step.
-/

namespace Handheld

/-- Related hosts give the same answers, and stay related whatever they are asked and told. -/
structure Host.Agree {η θ : Type} [Host η] [Host θ] (R : η → θ → Prop) : Prop where
  putPixel : ∀ {a b} shade x y, R a b → R (Host.putPixel a shade x y) (Host.putPixel b shade x y)
  frameSync : ∀ {a b}, R a b → R (Host.frameSync a) (Host.frameSync b)
  exchange_fst : ∀ {a b} v, R a b → (Host.exchange a v).1 = (Host.exchange b v).1
  exchange_snd : ∀ {a b} v, R a b → R (Host.exchange a v).2 (Host.exchange b v).2
  pollButtons_fst : ∀ {a b}, R a b → (Host.pollButtons a).1 = (Host.pollButtons b).1
  pollButtons_snd : ∀ {a b}, R a b → R (Host.pollButtons a).2 (Host.pollButtons b).2

/-- A host agrees with itself. -/
lemma Host.agree_eq (η : Type) [Host η] : Host.Agree (Eq : η → η → Prop) where
  putPixel := by
    rintro a _ shade x y rfl
    rfl
  frameSync := by
    rintro a _ rfl
    rfl
  exchange_fst := by
    rintro a _ v rfl
    rfl
  exchange_snd := by
    rintro a _ v rfl
    rfl
  pollButtons_fst := by
    rintro a _ rfl
    rfl
  pollButtons_snd := by
    rintro a _ rfl
    rfl

/-- There is only one way of having nothing attached. -/
instance : Subsingleton Solitude := ⟨fun _ _ => rfl⟩

/-- A bus behind a journal answers as the bus does, whatever is in the journal. -/
lemma ReportingBus.simulation :
    Memory.Simulation fun m n : ReportingBus => m.bus = n.bus where
  read_fst := by
    rintro ⟨bus, _⟩ ⟨_, _⟩ addr rfl
    rfl
  read_snd := by
    rintro ⟨bus, _⟩ ⟨_, _⟩ addr rfl
    rfl
  write := by
    rintro ⟨bus, _⟩ ⟨_, _⟩ addr v rfl
    rfl
  report _ h := h
  controller := by
    rintro ⟨bus, _⟩ ⟨_, _⟩ rfl
    rfl
  acknowledge := by
    rintro ⟨bus, _⟩ ⟨_, _⟩ x rfl
    rfl

variable {η θ : Type} [Host η] [Host θ] {R : η → θ → Prop} {a : η} {b : θ}

/-- Asking for the buttons any number of times. -/
lemma Joypad.poll_agree (hR : Host.Agree R) (h : R a b) (n : Nat) (j : Joypad) (fell : Bool) :
    (poll n j a fell).1 = (poll n j b fell).1 ∧ R (poll n j a fell).2.1 (poll n j b fell).2.1 ∧
      (poll n j a fell).2.2 = (poll n j b fell).2.2 := by
  induction n generalizing a b j fell with
  | zero => exact ⟨rfl, h, rfl⟩
  | succ n ih =>
    simp only [poll, hR.pollButtons_fst h]
    exact ih (hR.pollButtons_snd h) _ _

/-- The joypad follows the buttons that it is told. -/
lemma Joypad.advance_agree (hR : Host.Agree R) (h : R a b) (j : Joypad) (cycles : UInt32) :
    (j.advance cycles a).1 = (j.advance cycles b).1 ∧
      R (j.advance cycles a).2.1 (j.advance cycles b).2.1 ∧
      (j.advance cycles a).2.2 = (j.advance cycles b).2.2 :=
  poll_agree hR h _ _ _

/-- The serial link takes over the byte that it is told. -/
lemma Serial.advance_agree (hR : Host.Agree R) (h : R a b) (s : Serial) (cycles : UInt32) :
    (s.advance cycles a).1 = (s.advance cycles b).1 ∧
      R (s.advance cycles a).2.1 (s.advance cycles b).2.1 ∧
      (s.advance cycles a).2.2 = (s.advance cycles b).2.2 := by
  unfold advance
  split
  · simp only
    split
    · exact ⟨rfl, h, rfl⟩
    · rw [hR.exchange_fst s.sb h]
      exact ⟨rfl, hR.exchange_snd s.sb h, rfl⟩
  · exact ⟨rfl, h, rfl⟩

omit [Host η] [Host θ] in
/-- A loop whose rounds keep a relation keeps it. -/
lemma Frame.foldl_agree {n : Nat} {f : η → Fin n → η} {g : θ → Fin n → θ} (h : R a b)
    (hfg : ∀ {a b} i, R a b → R (f a i) (g b i)) : R (Fin.foldl n f a) (Fin.foldl n g b) := by
  induction n generalizing a b with
  | zero => simpa using h
  | succ n ih =>
    rw [Fin.foldl_succ, Fin.foldl_succ]
    exact ih (hfg 0 h) fun i h => hfg i.succ h

/-- Hosts that are shown the same picture agree afterwards. -/
lemma Frame.present_agree (hR : Host.Agree R) (h : R a b) (f : Frame) :
    R (f.present a) (f.present b) := by
  refine hR.frameSync (foldl_agree h fun y h => foldl_agree h fun x h => ?_)
  exact hR.putPixel _ _ _ h

/-- Time passes in the same way on a bus. -/
lemma Bus.advance_agree (hR : Host.Agree R) (h : R a b) (bus : Bus) (cycles : UInt32) :
    (bus.advance cycles a).bus = (bus.advance cycles b).bus ∧
      R (bus.advance cycles a).host (bus.advance cycles b).host ∧
      (bus.advance cycles a).frameDone = (bus.advance cycles b).frameDone ∧
      (bus.advance cycles a).pressed = (bus.advance cycles b).pressed := by
  obtain ⟨hjoypad, hhost, hpressed⟩ := Joypad.advance_agree hR h bus.joypad cycles
  obtain ⟨hserial, hhost', hreceived⟩ := Serial.advance_agree hR hhost bus.serial cycles
  unfold advance
  simp only [hjoypad, hpressed, hserial, hreceived]
  exact ⟨trivial, hhost', trivial, trivial⟩

/-- Machines with the same state and agreeing hosts take the same step, whatever their journals and
the files of their batteries are. -/
theorem Machine.step_agree (hR : Host.Agree R) (h : R a b) (m : Machine) (file : Option String)
    (journal journal' : Journal) :
    let s := m.step a journal
    let t := ({ m with batteryFile := file } : Machine).step b journal'
    s.cycles = t.cycles ∧ t.machine = { s.machine with batteryFile := file } ∧ R s.host t.host := by
  obtain ⟨cpu, bus, clock, batteryFile⟩ := m
  have hstart : Core.Related (fun m n : ReportingBus => m.bus = n.bus)
      ⟨cpu, ⟨bus, journal⟩⟩ ⟨cpu, ⟨bus, journal'⟩⟩ := ⟨rfl, rfl⟩
  obtain ⟨hwaited, hservice⟩ := ReportingBus.simulation.service hstart
  obtain ⟨hspent, hcpu, hbus⟩ := ReportingBus.simulation.step hservice
  simp only [step, hwaited, hspent, hcpu, hbus]
  obtain ⟨hadvanced, hhost, hframe, hpressed⟩ := Bus.advance_agree hR h
    (Core.service (⟨cpu, ⟨bus, journal'⟩⟩ : Core ReportingBus)).2.step.2.memory.bus
    ((Core.service (⟨cpu, ⟨bus, journal'⟩⟩ : Core ReportingBus)).1 +
      (Core.service (⟨cpu, ⟨bus, journal'⟩⟩ : Core ReportingBus)).2.step.1)
  refine ⟨trivial, ?_, ?_⟩
  · simp only [hadvanced, hpressed]
  · rw [hframe, hadvanced]
    split
    · exact Frame.present_agree hR hhost _
    · exact hhost

end Handheld
