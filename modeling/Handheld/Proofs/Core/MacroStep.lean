import Handheld.Proofs.Core.Control
import Handheld.Proofs.Core.Simulation
import Mathlib.Data.List.Basic

/-!
# What a macro-step costs and writes

A macro-step looks for an interrupt and takes a step.  Its cost, `Core.macroCost`, is the sum of
both, and is never more than twice the cost of the longest instruction
(`Core.macroCost_le`).

`Logged` is a memory with a list of everything that was written to it, and `Core.writes` is what a
macro-step writes.  Writing the list down changes nothing (`Logged.simulation`), so a property that
the memory keeps if it is written to with restraint can be followed through a macro-step together
with the list: see `Core.macroStep_of_writes`.
-/

namespace Handheld

/-! ### Costs -/

/-- The costs of a step: time passes in units of four cycles. -/
def stepCosts : List UInt32 := [4, 8, 12, 16, 20, 24]

/-- Every instruction has one of the costs of a step. -/
lemma Instruction.cycles_mem (i : Instruction) : i.cycles ∈ stepCosts := by
  have hplace : ∀ r : Place, 4 + 2 * placeCycles r ∈ stepCosts ∧
      8 + placeCycles r ∈ stepCosts ∧ 4 + placeCycles r ∈ stepCosts := by
    intro r
    cases r <;> decide
  cases i with
  | inc r | dec r => exact (hplace r).1
  | loadOperand r => exact (hplace r).2.1
  | alu op r => exact (hplace r).2.2
  | storeA p | loadA p => cases p <;> decide
  | load target source =>
    change 4 + (if target = .atHl ∨ source = .atHl then 4 else 0) ∈ stepCosts
    split
    · decide
    · decide
  | jumpRelative cond | jump cond | call cond | ret cond => cases cond <;> decide
  | _ =>
    simp only [cycles]
    decide

/-- A conditional instruction whose condition holds has one of the costs of a step. -/
lemma Instruction.takenCycles_mem (i : Instruction) : i.takenCycles ∈ stepCosts := by
  unfold takenCycles
  split
  · decide
  · decide
  · decide
  · rename_i cond
    cases cond <;> decide
  · exact cycles_mem _

/-- Every extended instruction has one of the costs of a step. -/
lemma ExtendedInstruction.cycles_mem (i : ExtendedInstruction) : i.cycles ∈ stepCosts := by
  unfold cycles
  split
  all_goals decide

namespace Core

variable {μ ν : Type} [Memory μ] [Memory ν]

/-- A step has one of these costs, also if the processor is idle. -/
lemma step_cost_mem (s : Core μ) : s.step.1 ∈ stepCosts := by
  unfold step
  split
  · exact (by decide : idleCycles ∈ stepCosts)
  · unfold stepRunning
    simp only
    split
    · exact ExtendedInstruction.cycles_mem _
    · simp only
      split
      · exact Instruction.takenCycles_mem _
      · exact Instruction.cycles_mem _

/-- The cost of the longest instruction. -/
def longestCycles : UInt32 := 24

/-- No step costs more than the longest instruction. -/
lemma step_cost_le (s : Core μ) : s.step.1 ≤ longestCycles := by
  have hall : ∀ c ∈ stepCosts, c ≤ longestCycles := List.forall_iff_forall_mem.mp (by decide)
  exact hall _ s.step_cost_mem

/-- Looking for an interrupt costs no more than the longest instruction, even if it wakes the
processor and goes to a vector. -/
lemma service_cost_le (s : Core μ) : s.service.1 ≤ longestCycles := by
  have hwake : ∀ halted : Bool, (if halted then wakeCycles else 0) + dispatchCycles ≤
      longestCycles ∧ (if halted then wakeCycles else 0) ≤ longestCycles := by
    decide
  unfold service
  simp only
  split
  · exact UInt32.zero_le
  · split
    · exact (hwake _).1
    · exact (hwake _).2

/-- The cost of a macro-step. -/
def macroCost (s : Core μ) : UInt32 := s.service.1 + s.service.2.step.1

/-- A macro-step costs at most twice as much as the longest instruction. -/
theorem macroCost_le (s : Core μ) : s.macroCost ≤ 48 := by
  have hservice := UInt32.le_iff_toNat_le.mp (service_cost_le s)
  have hstep := UInt32.le_iff_toNat_le.mp (step_cost_le s.service.2)
  have hlongest : longestCycles.toNat = 24 := rfl
  rw [UInt32.le_iff_toNat_le, macroCost, UInt32.toNat_add]
  change (s.service.1.toNat + s.service.2.step.1.toNat) % 4294967296 ≤ 48
  omega

/-- A halted processor that nothing wakes idles. -/
lemma idle_of_halted {s : Core μ} (hhalted : s.cpu.halted = true)
    (hpending : (Memory.controller s.memory).pending.first? = none) :
    s.macroStep = s ∧ s.macroCost = idleCycles := by
  rw [macroStep, macroCost, service_of_not_pending hpending, step_of_halted hhalted]
  exact ⟨rfl, UInt32.zero_add _⟩

/-- A processor of which nothing but the registers is special goes past an instruction that does
nothing, if no interrupt comes first. -/
lemma macroStep_of_nop {r : Registers} {m : μ}
    (hpending : (Memory.controller m).pending.first? = none)
    (hnop : Instruction.decode (Memory.read m r.pc).1 = .nop) :
    macroStep ⟨{ regs := r }, m⟩ =
      ⟨{ regs := { r with pc := r.pc + 1 } }, (Memory.read m r.pc).2⟩ := by
  have hservice := service_of_not_pending (s := ⟨{ regs := r }, m⟩) hpending
  have hopcode : (fetch ⟨{ regs := r }, m⟩).1 = (Memory.read m r.pc).1 := rfl
  have hne : ¬ (Memory.read m r.pc).1 = extensionByte := by
    intro h
    rw [h, Instruction.decode_extensionByte] at hnop
    cases hnop
  have hstep : (step ⟨{ regs := r }, m⟩).2 = (stepRunning ⟨{ regs := r }, m⟩).2 := rfl
  rw [macroStep, hservice, hstep]
  unfold stepRunning
  simp only [hopcode, if_neg hne, hnop]
  rfl

end Core

/-! ### Writes -/

/-- A memory with everything that was written to it, the first write first. -/
structure Logged (μ : Type) where
  memory : μ
  writes : List (UInt16 × UInt8) := []

instance {μ : Type} [Memory μ] : Memory (Logged μ) where
  read m addr := ((Memory.read m.memory addr).1, { m with memory := (Memory.read m.memory addr).2 })
  write m addr v := ⟨Memory.write m.memory addr v, m.writes ++ [(addr, v)]⟩
  controller m := Memory.controller m.memory
  setController m c := { m with memory := Memory.setController m.memory c }
  report m d := { m with memory := Memory.report m.memory d }

/-- Writing down the writes changes nothing. -/
theorem Logged.simulation {μ : Type} [Memory μ] :
    Memory.Simulation fun (m : Logged μ) (n : μ) => m.memory = n where
  read_fst := by
    rintro m _ addr rfl
    rfl
  read_snd := by
    rintro m _ addr rfl
    rfl
  write := by
    rintro m _ addr v rfl
    rfl
  report := by
    rintro m _ d rfl
    rfl
  controller := by
    rintro m _ rfl
    rfl
  acknowledge := by
    rintro m _ x rfl
    rfl

namespace Core

variable {μ : Type} [Memory μ]

/-- The core with an empty list of writes. -/
def logged (s : Core μ) : Core (Logged μ) := ⟨s.cpu, ⟨s.memory, []⟩⟩

/-- What a macro-step writes to the memory, in this order. -/
def writes (s : Core μ) : List (UInt16 × UInt8) := s.logged.macroStep.memory.writes

/-- The macro-step is the same without the list. -/
lemma macroStep_logged (s : Core μ) :
    s.logged.macroStep.cpu = s.macroStep.cpu ∧
      s.logged.macroStep.memory.memory = s.macroStep.memory := by
  have hstart : Related (fun (m : Logged μ) (n : μ) => m.memory = n) s.logged s := ⟨rfl, rfl⟩
  obtain ⟨-, hservice⟩ := Logged.simulation.service hstart
  obtain ⟨-, hstep⟩ := Logged.simulation.step hservice
  exact hstep

/-- A halted processor that nothing wakes writes nothing. -/
lemma writes_of_halted {s : Core μ} (hhalted : s.cpu.halted = true)
    (hpending : (Memory.controller s.memory).pending.first? = none) : s.writes = [] := by
  obtain ⟨hstep, -⟩ := idle_of_halted (s := s.logged) hhalted hpending
  rw [writes, hstep, logged]

/-- A property that everything keeps but certain writes survives a macro-step without such
writes. -/
theorem macroStep_of_writes {P : μ → Prop} {allowed : UInt16 × UInt8 → Prop} {s : Core μ}
    (hread : ∀ {m} addr, P m → P (Memory.read m addr).2)
    (hwrite : ∀ {m} addr v, allowed (addr, v) → P m → P (Memory.write m addr v))
    (hreport : ∀ {m} d, P m → P (Memory.report m d))
    (hacknowledge : ∀ {m} x, P m →
      P (Memory.setController m ((Memory.controller m).acknowledge x)))
    (hwrites : ∀ w ∈ s.writes, allowed w) (hs : P s.memory) : P s.macroStep.memory := by
  -- The list only grows, so as long as nothing on it is forbidden, nothing was forbidden before.
  have hclosed : Memory.Closed fun m : Logged μ => (∀ w ∈ m.writes, allowed w) → P m.memory := by
    constructor
    · intro m addr h hallowed
      exact hread addr (h hallowed)
    · intro m addr v h hallowed
      have hbefore : ∀ w ∈ m.writes, allowed w :=
        fun w hw => hallowed w (List.mem_append_left _ hw)
      have hnow : allowed (addr, v) :=
        hallowed _ (List.mem_append_right _ (List.mem_singleton_self _))
      exact hwrite addr v hnow (h hbefore)
    · intro m d h hallowed
      exact hreport d (h hallowed)
    · intro m x h hallowed
      exact hacknowledge x (h hallowed)
  have hlogged := hclosed.step (hclosed.service (s := s.logged) fun _ => hs)
  rw [← (macroStep_logged s).2]
  exact hlogged hwrites

end Core

end Handheld
