import Handheld.Proofs.Core.Control
import Mathlib.Tactic.ByContra

/-!
# Who decides about the master enable flag

Four parties write the master enable flag: a dispatch clears it, `reti` sets it, and
`enableInterrupts` and `disableInterrupts` ask for a change that happens one instruction later.
The change is a toggle: it is armed when it differs from the flag, and flips the flag when it is
due, whatever has happened to the flag in between.

`Core.Reached` describes the cores that appear without a debugger, and `Processor.Settled` is the
invariant that relates the stages of the toggle to them (`Core.Reached.settled`).  The main
statements are `Core.last_writer`, which says what each of the three instructions leaves in the
flag, and `Core.maskedFrom_iff`, which says when a dispatch keeps the flag clear.  In both the
exception is a toggle that was armed before the flag was written at once, by `reti` or by a
dispatch: it then undoes what was written (`Core.reti_after_enable`, `Core.dispatch_after_disable`).
-/

namespace Handheld

/-! ### The invariant between steps -/

/-- The stages of the toggle that occur between steps. -/
structure Processor.Settled (p : Processor) : Prop where
  /-- A step does not leave a request behind that it has not passed. -/
  not_pending : p.delay ≠ .pending
  /-- The processor is not idle while a change is due. -/
  awake : p.delay = .due → p.halted = false ∧ p.stopped = false

namespace Processor.Settled

variable {p : Processor}

/-- Without a change under way there is nothing to check. -/
lemma of_idle (h : p.delay = .idle) : p.Settled where
  not_pending := by simp [h]
  awake := by simp [h]

/-- Only the part without the registers matters. -/
lemma control_iff : p.control.Settled ↔ p.Settled :=
  ⟨fun h => ⟨h.not_pending, h.awake⟩, fun h => ⟨h.not_pending, h.awake⟩⟩

/-- Between steps either nothing is under way or a change is due. -/
lemma idle_or_due (hp : p.Settled) : p.delay = .idle ∨ p.delay = .due := by
  cases h : p.delay with
  | idle => exact Or.inl rfl
  | pending => exact absurd h hp.not_pending
  | due => exact Or.inr rfl

/-- A request is passed by the step that makes it.  A change that was due before the step has
happened, so that an instruction that makes the processor idle leaves no change behind. -/
lemma retire_govern (hp : p.Settled) (hhalted : p.halted = false) (hstopped : p.stopped = false)
    (i : Instruction) : (i.govern p).retireDelay.Settled := by
  obtain ⟨regs, ime, delay, halted, stopped, trace⟩ := p
  obtain rfl : halted = false := hhalted
  obtain rfl : stopped = false := hstopped
  have hdelay : delay = .idle ∨ delay = .due := hp.idle_or_due
  rcases hdelay with rfl | rfl
  · cases i with
    | disableInterrupts | enableInterrupts =>
      cases ime <;> exact ⟨ImeDelay.noConfusion, fun _ => ⟨rfl, rfl⟩⟩
    | _ => exact .of_idle rfl
  · cases i with
    | disableInterrupts | enableInterrupts => cases ime <;> exact .of_idle rfl
    | _ => exact .of_idle rfl

end Processor.Settled

/-! ### What an instruction leaves in the flag -/

namespace Instruction

variable {p : Processor}

/-- Most instructions leave the flag and its delay alone. -/
lemma govern_flag {i : Instruction} (hreti : i ≠ .reti) (hdi : i ≠ .disableInterrupts)
    (hei : i ≠ .enableInterrupts) :
    (i.govern p).ime = p.ime ∧ (i.govern p).delay = p.delay := by
  cases i with
  | reti => exact absurd rfl hreti
  | disableInterrupts => exact absurd rfl hdi
  | enableInterrupts => exact absurd rfl hei
  | _ => exact ⟨rfl, rfl⟩

/-- After `reti` the flag is set, unless a change was due: the change then takes it back. -/
lemma ime_reti (hp : p.Settled) :
    (reti.govern p).retireDelay.ime = true ↔ p.delay = .idle := by
  obtain ⟨regs, ime, delay, halted, stopped, trace⟩ := p
  have hdelay : delay = .idle ∨ delay = .due := hp.idle_or_due
  rcases hdelay with rfl | rfl
  · constructor
    · intro _
      rfl
    · intro _
      rfl
  · constructor
    · intro hset
      cases hset
    · intro hidle
      cases hidle

/-- If the flag is headed for `true`, it arrives there with the next instruction, unless this
calls the change off, or is a `reti` that writes the flag while the change is due. -/
lemma ime_of_headed_true {j : Instruction} (hp : p.Settled) (hheaded : p.headed = true)
    (hdi : j ≠ .disableInterrupts) :
    (j.govern p).retireDelay.ime = true ↔ (j = .reti → p.delay = .idle) := by
  obtain ⟨regs, ime, delay, halted, stopped, trace⟩ := p
  have hdelay : delay = .idle ∨ delay = .due := hp.idle_or_due
  rcases hdelay with rfl | rfl
  · obtain rfl : ime = true := by simpa [Processor.headed, ImeDelay.isArmed] using hheaded
    cases j with
    | disableInterrupts => exact absurd rfl hdi
    | _ =>
      constructor
      · intro _ _
        rfl
      · intro _
        rfl
  · obtain rfl : ime = false := by simpa [Processor.headed, ImeDelay.isArmed] using hheaded
    cases j with
    | disableInterrupts => exact absurd rfl hdi
    | reti =>
      constructor
      · intro hset
        cases hset
      · intro hidle
        cases hidle rfl
    | _ =>
      constructor
      · intro _ hreti
        cases hreti
      · intro _
        rfl

/-- If the flag is headed for `false`, it arrives there with the next instruction, unless this asks
for the opposite. -/
lemma ime_of_headed_false {j : Instruction} (hp : p.Settled) (hheaded : p.headed = false)
    (hreti : j ≠ .reti) (hei : j ≠ .enableInterrupts) :
    (j.govern p).retireDelay.ime = false := by
  obtain ⟨regs, ime, delay, halted, stopped, trace⟩ := p
  have hdelay : delay = .idle ∨ delay = .due := hp.idle_or_due
  rcases hdelay with rfl | rfl
  · obtain rfl : ime = false := by simpa [Processor.headed, ImeDelay.isArmed] using hheaded
    cases j with
    | reti => exact absurd rfl hreti
    | enableInterrupts => exact absurd rfl hei
    | _ => rfl
  · obtain rfl : ime = true := by simpa [Processor.headed, ImeDelay.isArmed] using hheaded
    cases j with
    | reti => exact absurd rfl hreti
    | enableInterrupts => exact absurd rfl hei
    | _ => rfl

/-- A clear flag stays clear, and nothing is under way afterwards, if nothing was under way before
or the instruction calls it off. -/
lemma masked_retire {i : Instruction} (hreti : i ≠ .reti) (hei : i ≠ .enableInterrupts)
    (hime : p.ime = false) (h : p.delay = .idle ∨ p.delay = .due ∧ i = .disableInterrupts) :
    (i.govern p).retireDelay.ime = false ∧ (i.govern p).retireDelay.delay = .idle := by
  obtain ⟨regs, ime, delay, halted, stopped, trace⟩ := p
  obtain rfl : ime = false := hime
  rcases h with h | ⟨h, rfl⟩
  · obtain rfl : delay = .idle := h
    cases i with
    | reti => exact absurd rfl hreti
    | enableInterrupts => exact absurd rfl hei
    | _ => exact ⟨rfl, rfl⟩
  · obtain rfl : delay = .due := h
    exact ⟨rfl, rfl⟩

/-- A change that is due sets a clear flag, unless the instruction writes the flag itself. -/
lemma ime_of_due {i : Instruction} (hreti : i ≠ .reti) (hdi : i ≠ .disableInterrupts)
    (hei : i ≠ .enableInterrupts) (hime : p.ime = false) (hdue : p.delay = .due) :
    (i.govern p).retireDelay.ime = true := by
  obtain ⟨himei, hdelayi⟩ := govern_flag (p := p) hreti hdi hei
  rw [hime] at himei
  rw [hdue] at hdelayi
  simp [Processor.retireDelay, himei, hdelayi]

end Instruction

namespace Core

variable {μ : Type} [Memory μ] {s t : Core μ}

/-- A core whose memory has been changed from outside. -/
def outside (s : Core μ) (f : μ → μ) : Core μ := { s with memory := f s.memory }

/-- The cores that appear without a debugger: a processor that has just been switched on, with any
memory, and whatever comes after it when the processor looks for interrupts and takes steps, and
when the memory changes in between. -/
inductive Reached : Core μ → Prop
  | new (trace : Bool) (m : μ) : Reached ⟨{ trace := trace }, m⟩
  | postBoot (trace : Bool) (m : μ) : Reached ⟨{ Processor.postBoot with trace := trace }, m⟩
  | outside {s : Core μ} (f : μ → μ) : Reached s → Reached (s.outside f)
  | service {s : Core μ} : Reached s → Reached s.service.2
  | step {s : Core μ} : Reached s → Reached s.step.2

/-- A step keeps the invariant. -/
lemma settled_step (hs : s.cpu.Settled) : s.step.2.cpu.Settled := by
  cases hi : s.instruction? with
  | none =>
    rw [step_of_idle hi]
    exact hs
  | some i =>
    obtain ⟨hhalted, hstopped⟩ := awake_of_instruction hi
    have hcontrol : s.cpu.control.Settled := Processor.Settled.control_iff.mpr hs
    rw [← Processor.Settled.control_iff, control_step hi]
    exact hcontrol.retire_govern hhalted hstopped i

/-- The search for an interrupt keeps the invariant. -/
lemma settled_service (hs : s.cpu.Settled) : s.service.2.cpu.Settled := by
  rw [← Processor.Settled.control_iff, control_service]
  refine ⟨hs.not_pending, fun h => ?_⟩
  obtain ⟨hhalted, hstopped⟩ := hs.awake h
  exact ⟨by simp [hhalted], hstopped⟩

/-- The invariant holds in every core that appears without a debugger. -/
theorem Reached.settled (hs : Reached s) : s.cpu.Settled := by
  induction hs with
  | new trace m => exact .of_idle rfl
  | postBoot trace m => exact .of_idle rfl
  | outside f _ ih => exact ih
  | service _ ih => exact settled_service ih
  | step _ ih => exact settled_step ih

/-- The invariant says nothing about registers. -/
lemma Reached.settled_control (hs : Reached s) : s.cpu.control.Settled :=
  Processor.Settled.control_iff.mpr hs.settled

/-! ### The last writer -/

/-- From one core to another without an instruction and without a dispatch: the memory changes, the
processor looks for interrupts in vain or only to wake up, and it idles. -/
inductive Between (s : Core μ) : Core μ → Prop
  | refl : Between s s
  | outside {t : Core μ} (f : μ → μ) : Between s t → Between s (t.outside f)
  | service {t : Core μ} : Between s t → t.dispatched? = none → Between s t.service.2
  | idle {t : Core μ} : Between s t → t.instruction? = none → Between s t.step.2

/-- What comes without an instruction and without a dispatch appears without a debugger. -/
lemma Between.reached (h : Between s t) (hs : Reached s) : Reached t := by
  induction h with
  | refl => exact hs
  | outside f _ ih => exact .outside f ih
  | service _ _ ih => exact .service ih
  | idle _ _ ih => exact .step ih

/-- Without an instruction and without a dispatch the flag is headed where it was. -/
lemma Between.headed (h : Between s t) : t.cpu.headed = s.cpu.headed := by
  induction h with
  | refl => rfl
  | outside f _ ih => exact ih
  | @service t _ hnone ih =>
    rw [← ih, ← Processor.control_headed, control_service, hnone]
    simp [Processor.headed]
  | idle _ hnone ih => rw [step_of_idle hnone, ih]

/-- Whether a step leaves the flag set is decided by its instruction. -/
lemma ime_step {i : Instruction} (h : s.instruction? = some i) :
    s.step.2.cpu.ime = (i.govern s.cpu.control).retireDelay.ime :=
  congrArg (·.ime) (control_step h)

/-- Where a step leaves the flag headed for is decided by its instruction. -/
lemma headed_step {i : Instruction} (h : s.instruction? = some i) :
    s.step.2.cpu.headed = (i.govern s.cpu.control).headed := by
  rw [← Processor.control_headed, control_step h, Processor.headed_retireDelay]

/-- What the instructions that write the master enable flag, and all others, leave in it. -/
structure LastWriter (s : Core μ) : Prop where
  /-- No request is left behind by a step. -/
  not_pending : s.cpu.delay ≠ .pending
  /-- After `reti` the flag is set exactly if no change was under way. -/
  reti : s.instruction? = some .reti → (s.step.2.cpu.ime = true ↔ s.cpu.delay = .idle)
  /-- The instruction after `enableInterrupts`, unless it is the opposite, leaves the flag set,
  exactly if it is not a `reti` that comes while the change is under way. -/
  enable : s.instruction? = some .enableInterrupts → ∀ t j, Between s.step.2 t →
    t.instruction? = some j → j ≠ .disableInterrupts →
      (t.step.2.cpu.ime = true ↔ (j = .reti → t.cpu.delay = .idle))
  /-- The instruction after `disableInterrupts` leaves the flag clear, unless it is one that sets
  the flag. -/
  disable : s.instruction? = some .disableInterrupts → ∀ t j, Between s.step.2 t →
    t.instruction? = some j → j ≠ .enableInterrupts → j ≠ .reti → t.step.2.cpu.ime = false
  /-- Every other instruction leaves the flag headed where it was. -/
  other : ∀ i, s.instruction? = some i → i ≠ .reti → i ≠ .disableInterrupts →
    i ≠ .enableInterrupts → s.step.2.cpu.headed = s.cpu.headed

/-- In every core that appears without a debugger, the last instruction that writes the master
enable flag decides about it, except that a `reti` is undone by a change that is under way. -/
theorem last_writer (hs : Reached s) : s.LastWriter := by
  refine ⟨hs.settled.not_pending, ?_, ?_, ?_, ?_⟩
  · intro hi
    rw [ime_step hi]
    exact Instruction.ime_reti hs.settled_control
  · intro hi t j hbetween hj hdi
    have ht : t.cpu.control.Settled := (hbetween.reached hs.step).settled_control
    have hheaded : t.cpu.headed = true := by
      rw [hbetween.headed, headed_step hi]
      exact Processor.headed_requestIme _ _
    rw [ime_step hj]
    exact Instruction.ime_of_headed_true ht hheaded hdi
  · intro hi t j hbetween hj hei hreti
    have ht : t.cpu.control.Settled := (hbetween.reached hs.step).settled_control
    have hheaded : t.cpu.headed = false := by
      rw [hbetween.headed, headed_step hi]
      exact Processor.headed_requestIme _ _
    rw [ime_step hj]
    exact Instruction.ime_of_headed_false ht hheaded hreti hei
  · intro i hi hreti hdi hei
    obtain ⟨hime, hdelay⟩ := Instruction.govern_flag (p := s.cpu.control) hreti hdi hei
    rw [headed_step hi, Processor.headed, hime, hdelay]
    rfl

/-- The program `ei`, `reti`. -/
def enableThenReturn : Core FlatMemory :=
  ⟨{}, { cells := fun a => if a = 0 then 0xFB else if a = 1 then 0xD9 else 0 }⟩

/-- What `last_writer` says about a program that enables interrupts and returns. -/
theorem last_writer_enableThenReturn : enableThenReturn.LastWriter :=
  last_writer (.new false _)

/-- A `reti` right after `ei` leaves the master enable flag clear. -/
theorem reti_after_enable :
    Reached enableThenReturn.step.2 ∧ enableThenReturn.instruction? = some .enableInterrupts ∧
      enableThenReturn.step.2.instruction? = some .reti ∧
      enableThenReturn.step.2.step.2.cpu.ime = false := by
  refine ⟨.step (.new false _), ?_, ?_, ?_⟩
  · decide
  · decide
  · decide

/-! ### Dispatches -/

/-- A macro-step, and one more after each of some changes of the memory from outside. -/
def macroSteps (s : Core μ) : List (μ → μ) → Core μ
  | [] => s.macroStep
  | f :: fs => macroSteps (s.macroStep.outside f) fs

/-- The instructions that these macro-steps execute. -/
def executed (s : Core μ) : List (μ → μ) → List Instruction
  | [] => s.service.2.instruction?.toList
  | f :: fs => s.service.2.instruction?.toList ++ executed (s.macroStep.outside f) fs

/-- As long as no instruction has set the flag or asked for it, the flag is clear after a macro-step
and after all later ones, and nothing more is dispatched, whatever is requested in between. -/
def MaskedFrom (s : Core μ) : Prop :=
  ∀ fs, (∀ i ∈ executed s fs, i ≠ .enableInterrupts ∧ i ≠ .reti) →
    (macroSteps s fs).cpu.ime = false ∧ ∀ f, ((macroSteps s fs).outside f).dispatched? = none

/-- The flag is clear, and nothing is under way that would change it. -/
structure Masked (s : Core μ) : Prop where
  ime : s.cpu.ime = false
  delay : s.cpu.delay = .idle

/-- An instruction leaves the processor masked if the flag was clear and nothing was under way, or
if it calls off what was under way; it may not set the flag or ask for it. -/
lemma masked_step {i : Instruction} (hi : s.instruction? = some i) (hreti : i ≠ .reti)
    (hei : i ≠ .enableInterrupts) (hime : s.cpu.ime = false)
    (h : s.cpu.delay = .idle ∨ s.cpu.delay = .due ∧ i = .disableInterrupts) : s.step.2.Masked := by
  have hmasked := Instruction.masked_retire (p := s.cpu.control) hreti hei hime h
  rw [← control_step hi] at hmasked
  exact ⟨hmasked.1, hmasked.2⟩

/-- A masked processor stays masked while it executes an instruction, unless this sets the flag or
asks for it. -/
lemma Masked.step (hs : s.Masked)
    (hi : ∀ i ∈ s.instruction?.toList, i ≠ .enableInterrupts ∧ i ≠ .reti) : s.step.2.Masked := by
  cases h : s.instruction? with
  | none =>
    rw [step_of_idle h]
    exact hs
  | some i =>
    obtain ⟨hei, hreti⟩ := hi i (by simp [h])
    exact masked_step h hreti hei hs.ime (Or.inl hs.delay)

/-- A search for an interrupt changes nothing about what is under way. -/
lemma delay_service (s : Core μ) : s.service.2.cpu.delay = s.cpu.delay := by
  rw [← Processor.control_delay, control_service]
  rfl

/-- A dispatch clears the flag. -/
lemma ime_service {x : Source} (hx : s.dispatched? = some x) :
    s.service.2.cpu.ime = false := by
  rw [← Processor.control_ime, control_service]
  simp [hx]

/-- A search for an interrupt leaves a masked processor masked. -/
lemma Masked.service (hs : s.Masked) : s.service.2.Masked := by
  refine ⟨?_, (delay_service s).trans hs.delay⟩
  rw [← Processor.control_ime, control_service]
  simp [hs.ime]

/-- The instruction of the first macro-step is among those that are executed. -/
lemma mem_executed {i : Instruction} (h : s.service.2.instruction? = some i) (fs : List (μ → μ)) :
    i ∈ executed s fs := by
  cases fs with
  | nil => simp [executed, h]
  | cons f fs => simp [executed, h]

/-- A processor with a change that is due executes an instruction after every search for an
interrupt. -/
lemma instruction_of_due (hs : Reached s) (hdue : s.cpu.delay = .due) :
    ∃ i, s.service.2.instruction? = some i := by
  obtain ⟨hhalted, hstopped⟩ := hs.settled.awake hdue
  have hcontrol := control_service s
  have hhalted' : s.service.2.cpu.halted = false := by
    rw [← Processor.control_halted, hcontrol]
    simp [hhalted]
  have hstopped' : s.service.2.cpu.stopped = false := by
    rw [← Processor.control_stopped, hcontrol]
    exact hstopped
  exact ⟨_, if_neg (by simp [hhalted', hstopped'])⟩

/-- A masked processor stays masked in a run of macro-steps. -/
lemma Masked.macroSteps (fs : List (μ → μ)) (hs : s.macroStep.Masked)
    (hi : ∀ i ∈ executed s fs, i ≠ .enableInterrupts ∧ i ≠ .reti) : (s.macroSteps fs).Masked := by
  induction fs generalizing s with
  | nil => exact hs
  | cons f fs ih =>
    have htail : ∀ i ∈ executed (s.macroStep.outside f) fs,
        i ≠ .enableInterrupts ∧ i ≠ .reti := fun i h => hi i (List.mem_append_right _ h)
    refine ih ?_ htail
    have houtside : (s.macroStep.outside f).Masked := ⟨hs.ime, hs.delay⟩
    refine houtside.service.step ?_
    intro i h
    exact htail i (mem_executed (Option.mem_toList.mp h) fs)

/-- A dispatch while a change of the flag is under way does not keep the flag clear: the first
instruction of the handler completes the change, unless it writes the flag itself. -/
lemma ime_macroStep_of_due {x : Source} {i : Instruction} (hx : s.dispatched? = some x)
    (hdue : s.cpu.delay = .due) (hi : s.service.2.instruction? = some i) (hreti : i ≠ .reti)
    (hdi : i ≠ .disableInterrupts) (hei : i ≠ .enableInterrupts) :
    s.macroStep.cpu.ime = true := by
  have hdelay : s.service.2.cpu.delay = .due := (delay_service s).trans hdue
  rw [macroStep, ime_step hi]
  exact Instruction.ime_of_due hreti hdi hei (ime_service hx) hdelay

/-- A dispatch leaves the processor masked if no change of the flag was under way. -/
lemma masked_macroStep_of_idle {x : Source} (hx : s.dispatched? = some x)
    (hidle : s.cpu.delay = .idle)
    (hi : ∀ i ∈ s.service.2.instruction?.toList, i ≠ .enableInterrupts ∧ i ≠ .reti) :
    s.macroStep.Masked := by
  have hservice : s.service.2.Masked := ⟨ime_service hx, (delay_service s).trans hidle⟩
  exact hservice.step hi

/-- A dispatch leaves the processor masked if the handler begins with `disableInterrupts`. -/
lemma masked_macroStep_of_disable {x : Source} (hs : Reached s) (hx : s.dispatched? = some x)
    (hi : s.service.2.instruction? = some .disableInterrupts) : s.macroStep.Masked := by
  have hdelay := hs.settled.idle_or_due
  rw [← delay_service] at hdelay
  refine masked_step hi ?_ ?_ (ime_service hx) (hdelay.imp_right fun h => ⟨h, rfl⟩)
  · simp
  · simp

/-- In every core that appears without a debugger, a dispatch keeps the master enable flag clear
until an instruction enables interrupts again, exactly if no change of the flag was under way, or if
the first instruction of the handler writes the flag itself. -/
theorem maskedFrom_iff (hs : Reached s) {x : Source} (hx : s.dispatched? = some x) :
    s.MaskedFrom ↔ s.cpu.delay = .idle ∨ ∃ i, s.service.2.instruction? = some i ∧
      (i = .disableInterrupts ∨ i = .enableInterrupts ∨ i = .reti) := by
  constructor
  · intro h
    rcases hs.settled.idle_or_due with hidle | hdue
    · exact Or.inl hidle
    · -- A change that is due keeps the processor awake, so the handler has a first instruction.
      right
      obtain ⟨i, hi⟩ := instruction_of_due hs hdue
      refine ⟨i, hi, ?_⟩
      by_contra hother
      simp only [not_or] at hother
      obtain ⟨hdi, hei, hreti⟩ := hother
      have hfirst : ∀ j ∈ executed s [], j ≠ .enableInterrupts ∧ j ≠ .reti := by
        intro j hj
        obtain rfl : j = i := by simpa [executed, hi] using hj
        exact ⟨hei, hreti⟩
      have hclear : s.macroStep.cpu.ime = false := (h [] hfirst).1
      have hset := ime_macroStep_of_due hx hdue hi hreti hdi hei
      rw [hset] at hclear
      cases hclear
  · intro h fs hfs
    have hfirst : s.macroStep.Masked := by
      rcases h with hidle | ⟨i, hi, rfl | hsets⟩
      · refine masked_macroStep_of_idle hx hidle ?_
        intro i hi
        exact hfs i (mem_executed (Option.mem_toList.mp hi) fs)
      · exact masked_macroStep_of_disable hs hx hi
      · obtain ⟨hei, hreti⟩ := hfs i (mem_executed hi fs)
        exact absurd hsets (by simp [hei, hreti])
    have hmasked := hfirst.macroSteps fs hfs
    exact ⟨hmasked.ime, fun f => dispatched?_of_masked hmasked.ime⟩

/-- The program `ei`, `nop`, `di`, with an interrupt source enabled; the handler is empty. -/
def disableLate : Core FlatMemory :=
  ⟨{}, { cells := fun a => if a = 0 then 0xFB else if a = 2 then 0xF3 else 0
         interrupts := { enabled := .single .vblank true } }⟩

/-- A request of the first source from outside. -/
def requestVblank (m : FlatMemory) : FlatMemory :=
  { m with interrupts := m.interrupts.raise (.single .vblank true) }

/-- What `maskedFrom_iff` says about a dispatch after `nop`. -/
theorem maskedFrom_after_nop :
    (disableLate.macroStep.macroStep.outside requestVblank).MaskedFrom :=
  (maskedFrom_iff (x := .vblank)
    (.outside _ (.step (.service (.step (.service (.new false _)))))) (by decide)).mpr
      (Or.inl (by decide))

/-- A dispatch after `di` leaves the master enable flag set: the change that `di` has armed flips
the flag that the dispatch has cleared. -/
theorem dispatch_after_disable :
    let s := disableLate.macroStep.macroStep.macroStep.outside requestVblank
    Reached s ∧ s.dispatched? = some .vblank ∧ executed s [] = [.nop] ∧
      s.macroStep.cpu.ime = true := by
  refine ⟨?_, ?_, ?_, ?_⟩
  · exact .outside _ (.step (.service (.step (.service (.step (.service (.new false _)))))))
  · decide
  · decide
  · decide

end Core

end Handheld
