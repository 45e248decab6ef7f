import Handheld.Processor.Step
import Mathlib.Logic.Basic
import Mathlib.Tactic.Lemma

/-!
# Memories that a processor cannot tell apart

A processor sees its memory only through the operations of `Memory`.  A `Memory.Simulation` is a
relation between two kinds of memory that these operations keep, and under which they answer alike.
Two cores with equal processors and related memories are `Core.Related`.  The main statements are
`Memory.Simulation.step` and `Memory.Simulation.service`: related cores take steps of the same
cost, serve the same interrupts, and stay related.

No instruction reads anything after it has begun to write.  So a write may end the time in which the
memories answer alike, as long as something else holds of them from then on: `Memory.Phased` says
this with two relations, and `Memory.Phased.step` follows them through a step.  Everything about
single instructions is proved for this case, of which a simulation is one with equal relations.

`Memory.Closed` is the special case of one memory.  A property of memories that every access keeps
also survives every step of a processor: see `Memory.Closed.step` and `Memory.Closed.service`.
-/

namespace Handheld

/-- Related memories answer alike, and stay related whatever the processor does to them. -/
structure Memory.Simulation {μ ν : Type} [Memory μ] [Memory ν] (R : μ → ν → Prop) : Prop where
  read_fst : ∀ {m n} addr, R m n → (Memory.read m addr).1 = (Memory.read n addr).1
  read_snd : ∀ {m n} addr, R m n → R (Memory.read m addr).2 (Memory.read n addr).2
  write : ∀ {m n} addr v, R m n → R (Memory.write m addr v) (Memory.write n addr v)
  report : ∀ {m n} d, R m n → R (Memory.report m d) (Memory.report n d)
  controller : ∀ {m n}, R m n → Memory.controller m = Memory.controller n
  acknowledge : ∀ {m n} x, R m n →
    R (Memory.setController m ((Memory.controller m).acknowledge x))
      (Memory.setController n ((Memory.controller n).acknowledge x))

/-- Memories that answer alike while they are only read, so that the same is written to them; from
the first write on another relation holds. -/
structure Memory.Phased {μ ν : Type} [Memory μ] [Memory ν] (R Q : μ → ν → Prop) : Prop where
  read_fst : ∀ {m n} addr, R m n → (Memory.read m addr).1 = (Memory.read n addr).1
  read_snd : ∀ {m n} addr, R m n → R (Memory.read m addr).2 (Memory.read n addr).2
  note : ∀ {m n} d, R m n → R (Memory.report m d) (Memory.report n d)
  weaken : ∀ {m n}, R m n → Q m n
  write : ∀ {m n} addr v, Q m n → Q (Memory.write m addr v) (Memory.write n addr v)
  report : ∀ {m n} d, Q m n → Q (Memory.report m d) (Memory.report n d)

/-- In a simulation the relation is the same before and after. -/
lemma Memory.Simulation.phased {μ ν : Type} [Memory μ] [Memory ν] {R : μ → ν → Prop}
    (hR : Memory.Simulation R) : Memory.Phased R R where
  read_fst := hR.read_fst
  read_snd := hR.read_snd
  note := hR.report
  weaken h := h
  write := hR.write
  report := hR.report

namespace Core

variable {μ ν : Type} {R : μ → ν → Prop}

/-- Equal processors with related memories. -/
def Related (R : μ → ν → Prop) (s : Core μ) (t : Core ν) : Prop :=
  s.cpu = t.cpu ∧ R s.memory t.memory

/-- Equal results, and related cores that they leave behind. -/
def RelatedResult {α : Type} (R : μ → ν → Prop) (x : α × Core μ) (y : α × Core ν) : Prop :=
  x.1 = y.1 ∧ Related R x.2 y.2

/-- Related cores, and equal answers to whether a condition was met. -/
def RelatedExecution (R : μ → ν → Prop) (x : Core μ × Bool) (y : Core ν × Bool) : Prop :=
  Related R x.1 y.1 ∧ x.2 = y.2

/-- Going on from related results in the same way. -/
lemma RelatedResult.bind {α β γ : Type} {P : β → γ → Prop} {x : α × Core μ} {y : α × Core ν}
    (h : RelatedResult R x y) (f : α → Core μ → β) (g : α → Core ν → γ)
    (hfg : ∀ a s t, Related R s t → P (f a s) (g a t)) : P (f x.1 x.2) (g y.1 y.2) := by
  rw [h.1]
  exact hfg _ _ _ h.2

/-- Related cores stay related when both do the same to their registers. -/
lemma Related.withRegs {s : Core μ} {t : Core ν} (h : Related R s t)
    (f : Registers → Registers) :
    Related R (s.withRegs (f s.cpu.regs)) (t.withRegs (f t.cpu.regs)) := by
  refine ⟨?_, h.2⟩
  simp only [Core.withRegs, h.1]

/-- Related cores stay related when both do the same to their processors. -/
lemma Related.withCpu {s : Core μ} {t : Core ν} (h : Related R s t)
    (f : Processor → Processor) :
    Related R { s with cpu := f s.cpu } { t with cpu := f t.cpu } :=
  ⟨congrArg f h.1, h.2⟩

/-- Related cores stay related when both put a word into a pair. -/
lemma Related.setPair {s : Core μ} {t : Core ν} (h : Related R s t) (r : Pair) (v : UInt16) :
    Related R (s.setPair r v) (t.setPair r v) := by
  cases r with
  | bc => exact h.withRegs (·.setBc v)
  | de => exact h.withRegs (·.setDe v)
  | hl => exact h.withRegs (·.setHl v)
  | sp => exact h.withRegs ({ · with sp := v })

/-- Related cores stay related when both put a word into a pair of the stack instructions. -/
lemma Related.setStackPair {s : Core μ} {t : Core ν} (h : Related R s t) (r : StackPair)
    (v : UInt16) : Related R (s.setStackPair r v) (t.setStackPair r v) := by
  cases r with
  | bc => exact h.withRegs (·.setBc v)
  | de => exact h.withRegs (·.setDe v)
  | hl => exact h.withRegs (·.setHl v)
  | af => exact h.withRegs (·.setAf v)

/-- Related cores stay related when both have used a pointer. -/
lemma Related.advance {s : Core μ} {t : Core ν} (h : Related R s t) (p : Pointer) :
    Related R (s.advance p) (t.advance p) := by
  cases p with
  | hlIncrement => exact h.withRegs fun r => r.setHl (r.hl + 1)
  | hlDecrement => exact h.withRegs fun r => r.setHl (r.hl - 1)
  | _ => exact h

/-- A conditional act is the same act on both sides, or none. -/
lemma Related.when {s : Core μ} {t : Core ν} (h : Related R s t) (cond : Condition)
    {f : Core μ → Core μ} {g : Core ν → Core ν} (hfg : Related R (f s) (g t)) :
    RelatedExecution R (s.when cond f) (t.when cond g) := by
  have hc : s.satisfies cond = t.satisfies cond := by
    cases cond <;> simp only [Core.satisfies, h.1]
  unfold Core.when
  rw [hc]
  split
  · exact ⟨hfg, rfl⟩
  · exact ⟨h, rfl⟩

end Core

namespace Memory.Phased

open Handheld.Core

variable {μ ν : Type} [Memory μ] [Memory ν] {R Q : μ → ν → Prop} {s : Core μ} {t : Core ν}

/-! ### Accesses -/

/-- What holds of related cores before the first write is more than what holds afterwards. -/
lemma weakenCore (hR : Memory.Phased R Q) (h : Related R s t) : Related Q s t :=
  ⟨h.1, hR.weaken h.2⟩

lemma read (hR : Memory.Phased R Q) (h : Related R s t) (addr : UInt16) :
    RelatedResult R (s.read addr) (t.read addr) :=
  ⟨hR.read_fst addr h.2, h.1, hR.read_snd addr h.2⟩

lemma writeCore (hR : Memory.Phased R Q) (h : Related Q s t) (addr : UInt16) (v : UInt8) :
    Related Q (s.write addr v) (t.write addr v) :=
  ⟨h.1, hR.write addr v h.2⟩

lemma fetch (hR : Memory.Phased R Q) (h : Related R s t) :
    RelatedResult R s.fetch t.fetch := by
  obtain ⟨p, m⟩ := s
  obtain ⟨q, n⟩ := t
  obtain ⟨rfl, hmn⟩ := h
  exact ⟨hR.read_fst _ hmn, rfl, hR.read_snd _ hmn⟩

lemma fetchOperand (hR : Memory.Phased R Q) (h : Related R s t) (o : Operand) :
    RelatedResult R (s.fetchOperand o) (t.fetchOperand o) := by
  cases o with
  | none => exact ⟨rfl, h⟩
  | byte =>
    obtain ⟨hv, hs⟩ := hR.fetch h
    exact ⟨congrArg UInt8.toUInt16 hv, hs⟩
  | word =>
    obtain ⟨hlo, hs⟩ := hR.fetch h
    obtain ⟨hhi, hs'⟩ := hR.fetch hs
    exact ⟨congrArg₂ Word.join hhi hlo, hs'⟩

lemma push (hR : Memory.Phased R Q) (h : Related Q s t) (v : UInt16) :
    Related Q (s.push v) (t.push v) := by
  obtain ⟨p, m⟩ := s
  obtain ⟨q, n⟩ := t
  obtain ⟨rfl, hmn⟩ := h
  exact ⟨rfl, hR.write _ _ (hR.write _ _ hmn)⟩

lemma pop (hR : Memory.Phased R Q) (h : Related R s t) : RelatedResult R s.pop t.pop := by
  obtain ⟨p, m⟩ := s
  obtain ⟨q, n⟩ := t
  obtain ⟨rfl, hmn⟩ := h
  have hmn' := hR.read_snd p.regs.sp hmn
  exact ⟨congrArg₂ Word.join (hR.read_fst _ hmn') (hR.read_fst _ hmn), rfl, hR.read_snd _ hmn'⟩

lemma load (hR : Memory.Phased R Q) (h : Related R s t) (r : Place) :
    RelatedResult R (s.load r) (t.load r) := by
  cases r with
  | atHl =>
    obtain ⟨hv, hs⟩ := hR.read h s.cpu.regs.hl
    exact ⟨by simpa only [Core.load, h.1] using hv, by simpa only [Core.load, h.1] using hs⟩
  | _ => exact ⟨by simp only [Core.load, h.1], h⟩

lemma store (hR : Memory.Phased R Q) (h : Related Q s t) (r : Place) (v : UInt8) :
    Related Q (s.store r v) (t.store r v) := by
  obtain ⟨p, m⟩ := s
  obtain ⟨q, n⟩ := t
  obtain ⟨rfl, hmn⟩ := h
  cases r with
  | atHl => exact ⟨rfl, hR.write _ _ hmn⟩
  | _ => exact ⟨rfl, hmn⟩

/-! ### Instructions -/

lemma callTo (hR : Memory.Phased R Q) (h : Related Q s t) (target : UInt16) :
    Related Q (s.callTo target) (t.callTo target) := by
  unfold Core.callTo
  rw [h.1]
  exact (hR.push h _).withRegs ({ · with pc := target })

lemma ret (hR : Memory.Phased R Q) (h : Related R s t) : Related R s.ret t.ret :=
  (hR.pop h).bind (fun pc s => s.setPc pc) (fun pc t => t.setPc pc)
    fun pc _ _ h => h.withRegs ({ · with pc := pc })

/-- Related cores stay related when both store a byte with flags that their own flags decide. -/
lemma storeWithFlags (hR : Memory.Phased R Q) (h : Related Q s t) (r : Place)
    (f : Flags → UInt8 × Flags) :
    Related Q ((s.setFlags (f s.cpu.regs.f).2).store r (f s.cpu.regs.f).1)
      ((t.setFlags (f t.cpu.regs.f).2).store r (f t.cpu.regs.f).1) := by
  have hf := h.withRegs fun r => { r with f := (f r.f).2 }
  have hv : (f s.cpu.regs.f).1 = (f t.cpu.regs.f).1 := by rw [h.1]
  rw [hv]
  exact hR.store hf r _

/-- Related cores stay related when both replace a byte by one that it decides with the flags. -/
lemma modify (hR : Memory.Phased R Q) (h : Related R s t) (r : Place)
    (f : UInt8 → Flags → UInt8 × Flags) :
    let (v, s) := s.load r
    let (w, t) := t.load r
    Related Q ((s.setFlags (f v s.cpu.regs.f).2).store r (f v s.cpu.regs.f).1)
      ((t.setFlags (f w t.cpu.regs.f).2).store r (f w t.cpu.regs.f).1) := by
  obtain ⟨hv, hs⟩ := hR.load h r
  simp only [hv]
  exact hR.storeWithFlags (hR.weakenCore hs) r (f (t.load r).1)

/-- Related cores execute an instruction alike. -/
lemma execute (hR : Memory.Phased R Q) (h : Related R s t) (i : Instruction)
    (operand : UInt16) : RelatedExecution Q (s.execute i operand) (t.execute i operand) := by
  obtain ⟨p, m⟩ := s
  obtain ⟨q, n⟩ := t
  obtain rfl : p = q := h.1
  have hQ := hR.weakenCore h
  cases i with
  | nop | extended | illegal => exact ⟨hQ, rfl⟩
  | loadPair r | incPair r | decPair r => exact ⟨hQ.setPair r _, rfl⟩
  | addHl r => exact ⟨(hQ.withRegs ({ · with f := _ })).setPair .hl _, rfl⟩
  | loadHlSp => exact ⟨(hQ.withRegs ({ · with f := _ })).setPair .hl _, rfl⟩
  | storeSp => exact ⟨hR.writeCore (hR.writeCore hQ _ _) _ _, rfl⟩
  | addSp | loadSpHl | rotateA | daa | cpl | scf | ccf | stop | halt | aluOperand | jumpHl =>
    exact ⟨⟨rfl, hQ.2⟩, rfl⟩
  | disableInterrupts | enableInterrupts => exact ⟨⟨rfl, hQ.2⟩, rfl⟩
  | storeA a => exact ⟨(hR.writeCore hQ _ _).advance a, rfl⟩
  | loadA a =>
    exact ⟨(hR.read h _).bind (fun v s => (s.setA v).advance a) (fun v t => (t.setA v).advance a)
      fun v _ _ h => ((hR.weakenCore h).withRegs ({ · with a := v })).advance a, rfl⟩
  | inc r => exact ⟨hR.modify h r Alu.inc, rfl⟩
  | dec r => exact ⟨hR.modify h r Alu.dec, rfl⟩
  | loadOperand r => exact ⟨hR.store hQ r _, rfl⟩
  | load target source =>
    exact (hR.load h source).bind (fun v s => (s.store target v, false))
      (fun v t => (t.store target v, false))
      fun v _ _ h => ⟨hR.store (hR.weakenCore h) target v, rfl⟩
  | alu op source =>
    exact (hR.load h source).bind
      (fun v s => (s.setResult (Alu.apply op s.cpu.regs.a v s.cpu.regs.f.carry), false))
      (fun v t => (t.setResult (Alu.apply op t.cpu.regs.a v t.cpu.regs.f.carry), false))
      fun v _ _ h => ⟨(hR.weakenCore h).withRegs fun r =>
        let x := Alu.apply op r.a v r.f.carry
        { r with a := x.1, f := x.2 }, rfl⟩
  | jumpRelative cond | jump cond => exact hQ.when cond ⟨rfl, hQ.2⟩
  | call cond => exact hQ.when cond (hR.callTo hQ _)
  | ret cond => exact hQ.when cond (hR.weakenCore (hR.ret h))
  | reti => exact ⟨(hR.weakenCore (hR.ret h)).withCpu ({ · with ime := true }), rfl⟩
  | restart target => exact ⟨hR.callTo hQ _, rfl⟩
  | pop r =>
    exact ⟨(hR.pop h).bind (fun v s => s.setStackPair r v) (fun v t => t.setStackPair r v)
      fun v _ _ h => (hR.weakenCore h).setStackPair r v, rfl⟩
  | push r => exact ⟨hR.push hQ _, rfl⟩

/-- Related cores execute an extended instruction alike. -/
lemma executeExtended (hR : Memory.Phased R Q) (h : Related R s t) (i : ExtendedInstruction) :
    Related Q (s.executeExtended i) (t.executeExtended i) := by
  obtain ⟨hv, hs⟩ := hR.load h i.place
  have hQ := hR.weakenCore hs
  unfold Core.executeExtended
  simp only [hv]
  cases i with
  | shift op r =>
    exact hR.storeWithFlags hQ r fun f =>
      let x := Alu.shift op (t.load r).1 f.carry
      (x.1, { zero := x.1 == 0, carry := x.2 })
  | test bit r =>
    exact hQ.withRegs fun r => { r with f := { r.f with
      zero := !Byte.bit _ bit, subtract := false, halfCarry := true } }
  | reset bit r => exact hR.store hQ r _
  | set bit r => exact hR.store hQ r _

/-! ### Steps -/

lemma traceStep (hR : Memory.Phased R Q) (h : Related Q s t) (address : UInt16)
    (extended : Bool) (opcode : UInt8) (operand : UInt16) (cycles : UInt32) :
    Related Q (s.traceStep address extended opcode operand cycles)
      (t.traceStep address extended opcode operand cycles) := by
  unfold Core.traceStep
  rw [h.1]
  split
  · exact ⟨h.1, hR.report _ h.2⟩
  · exact h

lemma reportIllegal (hR : Memory.Phased R Q) (h : Related R s t) (i : Instruction)
    (opcode : UInt8) (address : UInt16) :
    Related R (s.reportIllegal i opcode address) (t.reportIllegal i opcode address) := by
  cases i with
  | illegal => exact ⟨h.1, hR.note _ h.2⟩
  | _ => exact h

lemma stepRunning (hR : Memory.Phased R Q) (h : Related R s t) :
    RelatedResult Q s.stepRunning t.stepRunning := by
  have hpc : s.cpu.regs.pc = t.cpu.regs.pc := by rw [h.1]
  obtain ⟨hop, hs⟩ := hR.fetch h
  unfold Core.stepRunning
  simp only [hpc, hop]
  split
  · obtain ⟨hop', hs'⟩ := hR.fetch hs
    simp only [hop']
    have he := (hR.executeExtended hs' (.decode t.fetch.2.fetch.1)).withCpu (·.retireDelay)
    exact ⟨rfl, hR.traceStep he _ _ _ _ _⟩
  · obtain ⟨harg, hs'⟩ := hR.fetchOperand hs (Instruction.decode t.fetch.1).operand
    have hi := hR.reportIllegal hs' (.decode t.fetch.1) t.fetch.1 t.cpu.regs.pc
    obtain ⟨he, htaken⟩ := hR.execute hi (.decode t.fetch.1) (t.fetch.2.fetchOperand
      (Instruction.decode t.fetch.1).operand).1
    simp only [harg, htaken]
    exact ⟨rfl, hR.traceStep (he.withCpu (·.retireDelay)) _ _ _ _ _⟩

/-- Related cores take steps of the same cost.  Afterwards something may have been written. -/
theorem step (hR : Memory.Phased R Q) (h : Related R s t) : RelatedResult Q s.step t.step := by
  unfold Core.step
  rw [h.1]
  split
  · exact ⟨rfl, hR.weakenCore h⟩
  · exact hR.stepRunning h

end Memory.Phased

namespace Memory.Simulation

open Handheld.Core

variable {μ ν : Type} [Memory μ] [Memory ν] {R : μ → ν → Prop} {s : Core μ} {t : Core ν}

/-- Related cores take steps of the same cost, and stay related. -/
theorem step (hR : Memory.Simulation R) (h : Related R s t) : RelatedResult R s.step t.step :=
  hR.phased.step h

/-- Related cores serve the same interrupt, if any, and stay related. -/
theorem service (hR : Memory.Simulation R) (h : Related R s t) :
    RelatedResult R s.service t.service := by
  obtain ⟨p, m⟩ := s
  obtain ⟨q, n⟩ := t
  obtain rfl : p = q := h.1
  have hmn : R m n := h.2
  unfold Core.service
  simp only [hR.controller hmn]
  split
  · exact ⟨rfl, h⟩
  · rename_i source _
    have hack := hR.acknowledge source hmn
    rw [hR.controller hmn] at hack
    split
    · exact ⟨rfl, hR.phased.callTo (s := ⟨_, _⟩) (t := ⟨_, _⟩) ⟨rfl, hack⟩ _⟩
    · exact ⟨rfl, rfl, hack⟩

end Memory.Simulation

/-! ### One memory -/

/-- A property of memories that survives whatever a processor does to its memory. -/
structure Memory.Closed {μ : Type} [Memory μ] (P : μ → Prop) : Prop where
  read : ∀ {m} addr, P m → P (Memory.read m addr).2
  write : ∀ {m} addr v, P m → P (Memory.write m addr v)
  report : ∀ {m} d, P m → P (Memory.report m d)
  acknowledge : ∀ {m} x, P m → P (Memory.setController m ((Memory.controller m).acknowledge x))

namespace Memory.Closed

variable {μ : Type} [Memory μ] {P : μ → Prop} {s : Core μ}

/-- A memory with a closed property cannot be told apart from itself. -/
lemma simulation (hP : Memory.Closed P) : Memory.Simulation fun m n : μ => m = n ∧ P m where
  read_fst := by
    rintro m _ addr ⟨rfl, -⟩
    rfl
  read_snd := by
    rintro m _ addr ⟨rfl, h⟩
    exact ⟨rfl, hP.read addr h⟩
  write := by
    rintro m _ addr v ⟨rfl, h⟩
    exact ⟨rfl, hP.write addr v h⟩
  report := by
    rintro m _ d ⟨rfl, h⟩
    exact ⟨rfl, hP.report d h⟩
  controller := by
    rintro m _ ⟨rfl, -⟩
    rfl
  acknowledge := by
    rintro m _ x ⟨rfl, h⟩
    exact ⟨rfl, hP.acknowledge x h⟩

/-- A closed property of the memory survives a step. -/
theorem step (hP : Memory.Closed P) (h : P s.memory) : P s.step.2.memory := by
  have hs : s.Related (fun m n : μ => m = n ∧ P m) s := ⟨rfl, rfl, h⟩
  exact (hP.simulation.step hs).2.2.2

/-- A closed property of the memory survives looking for interrupts. -/
theorem service (hP : Memory.Closed P) (h : P s.memory) : P s.service.2.memory := by
  have hs : s.Related (fun m n : μ => m = n ∧ P m) s := ⟨rfl, rfl, h⟩
  exact (hP.simulation.service hs).2.2.2

end Memory.Closed

end Handheld
