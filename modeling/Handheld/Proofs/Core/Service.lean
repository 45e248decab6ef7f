import Handheld.Proofs.Core.MacroStep

/-!
# Serving interrupts

The search for an interrupt finds nothing, or it acknowledges one source, wakes the processor, and
goes to the vector of the source if interrupts are enabled: the two cases are
`Core.service_of_not_pending` and `Core.service_of_pending`.

Which source it is says `Sources.Lowest`, a member with the smallest number, and
`Sources.members` lists a set in this order.  To acknowledge a source takes the head off the list of
what is pending (`Sources.members_erase`), so searches that follow each other take it apart from the
front, whatever happens to the processor in between (`Core.interrupts_passes`).  The main statement,
for a memory of independent cells, is `Core.service_drains`.
-/

namespace Handheld

/-! ### Sets of sources -/

namespace Source

/-- Every source is on the list. -/
lemma mem_all (x : Source) : x ∈ all := by
  cases x <;> decide

/-- The list is in increasing order. -/
lemma pairwise_all : all.Pairwise fun x y => x.index < y.index := by
  decide

/-- A source is determined by its number. -/
lemma index_inj {x y : Source} (h : x.index = y.index) : x = y := by
  cases x <;> cases y <;> first | rfl | cases h

/-- The vectors are eight addresses apart. -/
lemma vector_eq (x : Source) : x.vector = UInt16.ofNat (0x40 + 8 * x.index) := by
  cases x <;> rfl

end Source

namespace Sources

variable {s : Sources} {x : Source}

/-- The members of a set, in increasing order. -/
def members (s : Sources) : List Source := Source.all.filter s.contains

/-- The member with the smallest number. -/
def Lowest (s : Sources) (x : Source) : Prop :=
  s.contains x = true ∧ ∀ y, s.contains y = true → x.index ≤ y.index

/-- The list has the members of the set. -/
lemma mem_members (x : Source) : x ∈ s.members ↔ s.contains x = true := by
  simp [members, Source.mem_all]

/-- The list of the members of a set is in increasing order. -/
lemma pairwise_members (s : Sources) : s.members.Pairwise fun x y => x.index < y.index :=
  Source.pairwise_all.filter _

/-- The list of the members of a set starts with the most urgent one. -/
lemma head?_members (s : Sources) : s.members.head? = s.first? :=
  List.head?_filter

/-- The first member on the list is the lowest. -/
lemma lowest_of_members {l : List Source} (h : s.members = x :: l) : s.Lowest x := by
  have hsorted := s.pairwise_members
  rw [h] at hsorted
  refine ⟨(mem_members x).mp (h ▸ List.mem_cons_self), fun y hy => ?_⟩
  have hmem : y ∈ x :: l := h ▸ (mem_members y).mpr hy
  rcases List.mem_cons.mp hmem with rfl | hl
  · exact Nat.le_refl _
  · exact Nat.le_of_lt (List.rel_of_pairwise_cons hsorted hl)

/-- What is most urgent is what is lowest. -/
lemma first?_eq_some_iff (s : Sources) (x : Source) : s.first? = some x ↔ s.Lowest x := by
  rw [← head?_members]
  constructor
  · intro hx
    obtain ⟨l, hl⟩ := List.head?_eq_some_iff.mp hx
    exact lowest_of_members hl
  · rintro ⟨hx, hmin⟩
    cases hm : s.members with
    | nil =>
      have hmem : x ∈ s.members := (mem_members x).mpr hx
      rw [hm] at hmem
      cases hmem
    | cons y l =>
      obtain ⟨hy, hleast⟩ := lowest_of_members hm
      have hindex : y.index = x.index := Nat.le_antisymm (hleast x hx) (hmin y hy)
      rw [List.head?_cons, Source.index_inj hindex]

/-- Nothing is most urgent in an empty set. -/
lemma first?_eq_none_iff (s : Sources) : s.first? = none ↔ ∀ y, s.contains y = false := by
  simp [first?, Source.mem_all]

/-- Without its lowest member, the list of a set is shorter by its head. -/
theorem members_erase {l : List Source} (h : s.members = x :: l) : (s.erase x).members = l := by
  have hsorted := s.pairwise_members
  rw [h] at hsorted
  have hne : ∀ y ∈ l, (!decide (x = y)) = true := by
    intro y hy
    have hlt := List.rel_of_pairwise_cons hsorted hy
    have hxy : x ≠ y := by
      rintro rfl
      exact Nat.lt_irrefl _ hlt
    simp [hxy]
  calc (s.erase x).members
      = Source.all.filter fun y => s.contains y && !decide (x = y) := by
        exact List.filter_congr fun y _ => contains_erase s x y
    _ = s.members.filter fun y => !decide (x = y) := by
        rw [members, List.filter_filter]
        exact List.filter_congr fun y _ => Bool.and_comm _ _
    _ = l := by
        rw [h, List.filter_cons_of_neg (by simp), List.filter_eq_self.mpr hne]

/-- Members are taken away one by one. -/
lemma contains_foldl_erase (s : Sources) (l : List Source) (y : Source) :
    (l.foldl erase s).contains y = (s.contains y && !decide (y ∈ l)) := by
  induction l generalizing s with
  | nil => simp
  | cons x l ih =>
    rw [List.foldl_cons, ih, contains_erase, Bool.and_assoc]
    congr 1
    by_cases hxy : x = y
    · simp [hxy]
    · simp [hxy, Ne.symm hxy]

end Sources

/-- What has been acknowledged is no longer pending. -/
lemma InterruptController.pending_acknowledge (c : InterruptController) (x : Source) :
    (c.acknowledge x).pending = c.pending.erase x := by
  cases x <;> simp [acknowledge, pending, Sources.inter, Sources.erase]

namespace Core

/-! ### One search -/

section

variable {μ : Type} [Memory μ] {s : Core μ}

/-- The memory after the most urgent pending interrupt was acknowledged, if there is one. -/
def acknowledged (s : Core μ) : μ :=
  match (Memory.controller s.memory).pending.first? with
  | none => s.memory
  | some x => Memory.setController s.memory ((Memory.controller s.memory).acknowledge x)

/-- Looking for an interrupt costs nothing if none is pending, or if interrupts are disabled and the
processor is not halted. -/
lemma service_of_masked (hs : (Memory.controller s.memory).pending.first? ≠ none →
    s.cpu.ime = false ∧ s.cpu.halted = false) : s.service = (0, ⟨s.cpu, s.acknowledged⟩) := by
  obtain ⟨⟨regs, ime, delay, halted, stopped, trace⟩, m⟩ := s
  unfold service acknowledged
  cases hx : (Memory.controller m).pending.first? with
  | none => simp only [hx]
  | some x =>
    obtain ⟨rfl, rfl⟩ := hs (by simp [hx])
    simp [hx]

/-- A pending interrupt ends `halt`, and is dispatched if interrupts are enabled. -/
theorem service_of_pending {x : Source}
    (hx : (Memory.controller s.memory).pending.first? = some x) :
    let awake : Core μ := ⟨{ s.cpu with halted := false }, s.acknowledged⟩
    s.service = ((if s.cpu.halted then wakeCycles else 0) + if s.cpu.ime then dispatchCycles else 0,
      if s.cpu.ime then awake.dispatch x else awake) := by
  obtain ⟨p, m⟩ := s
  simp only at hx
  simp only [service, acknowledged, hx]
  split
  · rfl
  · rw [UInt32.add_zero]

/-- A dispatch moves the program counter and the stack pointer. -/
lemma cpu_dispatch (s : Core μ) (x : Source) :
    (s.dispatch x).cpu = { s.cpu with
      ime := false
      regs := { s.cpu.regs with pc := x.vector, sp := s.cpu.regs.sp - 2 } } := by
  rw [← Word.sub_one_sub_one]
  rfl

end

/-! ### Independent cells -/

variable {s : Core FlatMemory}

/-- A dispatch goes to the vector, and stores the program counter below the stack pointer, its high
byte above its low byte. -/
lemma dispatch_eq (s : Core FlatMemory) (x : Source) :
    s.dispatch x = {
      cpu := { s.cpu with
        ime := false
        regs := { s.cpu.regs with pc := x.vector, sp := s.cpu.regs.sp - 2 } }
      memory := (s.memory.set (s.cpu.regs.sp - 1) (Word.high s.cpu.regs.pc)).set
        (s.cpu.regs.sp - 2) (Word.low s.cpu.regs.pc) } := by
  rw [← Word.sub_one_sub_one]
  rfl

/-- Nothing happens if nothing is on the list. -/
lemma service_of_members_nil (h : s.memory.interrupts.pending.members = []) :
    s.service = (0, s) := by
  have hfirst : (Memory.controller s.memory).pending.first? = none := by
    rw [← Sources.head?_members]
    exact congrArg List.head? h
  exact service_of_not_pending hfirst

/-- The lowest pending source is acknowledged and ends `halt`; with interrupts enabled the processor
goes to its vector, with the program counter on the stack. -/
lemma service_of_lowest {x : Source} (hx : s.memory.interrupts.pending.Lowest x) :
    s.service = ((if s.cpu.halted then 4 else 0) + if s.cpu.ime then 20 else 0,
      { cpu := { s.cpu with
          ime := false
          halted := false
          regs := if s.cpu.ime then
              { s.cpu.regs with pc := UInt16.ofNat (0x40 + 8 * x.index), sp := s.cpu.regs.sp - 2 }
            else s.cpu.regs }
        memory := { if s.cpu.ime then
              (s.memory.set (s.cpu.regs.sp - 1) (Word.high s.cpu.regs.pc)).set
                (s.cpu.regs.sp - 2) (Word.low s.cpu.regs.pc)
            else s.memory with
          interrupts := s.memory.interrupts.acknowledge x } }) := by
  have hfirst : (Memory.controller s.memory).pending.first? = some x :=
    (Sources.first?_eq_some_iff _ x).mpr hx
  have hacknowledged : s.acknowledged =
      { s.memory with interrupts := s.memory.interrupts.acknowledge x } := by
    simp only [acknowledged, hfirst]
    rfl
  rw [service_of_pending hfirst, hacknowledged, ← Source.vector_eq, dispatch_eq]
  obtain ⟨⟨regs, ime, delay, halted, stopped, trace⟩, m⟩ := s
  cases ime with
  | true => rfl
  | false => rfl

/-! ### Searches one after the other -/

/-- Searches for an interrupt, one after each of some changes of the processor. -/
def passes (s : Core FlatMemory) : List (Processor → Processor) → Core FlatMemory
  | [] => s
  | f :: fs => passes (Core.service ⟨f s.cpu, s.memory⟩).2 fs

/-- Each search acknowledges the next member of what was pending in the beginning, as long as there
is one, whatever happens to the processor in between. -/
theorem interrupts_passes (s : Core FlatMemory) (fs : List (Processor → Processor)) :
    (s.passes fs).memory.interrupts = { s.memory.interrupts with
        requested := (s.memory.interrupts.pending.members.take fs.length).foldl Sources.erase
          s.memory.interrupts.requested } ∧
      (s.passes fs).memory.interrupts.pending.members =
        s.memory.interrupts.pending.members.drop fs.length := by
  induction fs generalizing s with
  | nil => exact ⟨rfl, rfl⟩
  | cons f fs ih =>
    obtain ⟨hcontroller, hpending⟩ := ih (Core.service ⟨f s.cpu, s.memory⟩).2
    cases hm : s.memory.interrupts.pending.members with
    | nil =>
      have hsame : (Core.service ⟨f s.cpu, s.memory⟩).2.memory = s.memory := by
        rw [service_of_members_nil (s := ⟨f s.cpu, s.memory⟩) hm]
      rw [hsame, hm] at hcontroller hpending
      rw [List.take_nil] at hcontroller ⊢
      rw [List.drop_nil] at hpending ⊢
      exact ⟨hcontroller, hpending⟩
    | cons x l =>
      have hnext : (Core.service ⟨f s.cpu, s.memory⟩).2.memory.interrupts =
          s.memory.interrupts.acknowledge x := by
        rw [service_of_lowest (s := ⟨f s.cpu, s.memory⟩) (Sources.lowest_of_members hm)]
      have hl : (s.memory.interrupts.acknowledge x).pending.members = l := by
        rw [InterruptController.pending_acknowledge, Sources.members_erase hm]
      rw [hnext, hl] at hcontroller hpending
      exact ⟨hcontroller, hpending⟩

/-- The search for an interrupt in every case, and many searches.  If nothing is pending it costs
nothing and does nothing, so that a halted processor only idles.  Otherwise the lowest pending
source, and no other, is acknowledged and ends `halt`, and with interrupts enabled the processor
goes to its vector, with the program counter on the stack.  Searches that follow each other
acknowledge the members of what was pending in increasing order, one at a time, whatever happens to
the processor in between. -/
theorem service_drains (s : Core FlatMemory) :
    let c := s.memory.interrupts
    let pending := c.pending
    ((∀ y, pending.contains y = false) →
      s.service = (0, s) ∧
      (s.cpu.halted = true → s.macroStep = s ∧ s.macroCost = 4)) ∧
    ((∃ y, pending.contains y = true) → ∃ x, pending.Lowest x ∧
      s.service = ((if s.cpu.halted then 4 else 0) + if s.cpu.ime then 20 else 0,
        { cpu := { s.cpu with
            ime := false
            halted := false
            regs := if s.cpu.ime then
                { s.cpu.regs with
                  pc := UInt16.ofNat (0x40 + 8 * x.index), sp := s.cpu.regs.sp - 2 }
              else s.cpu.regs }
          memory := { if s.cpu.ime then
                (s.memory.set (s.cpu.regs.sp - 1) (Word.high s.cpu.regs.pc)).set
                  (s.cpu.regs.sp - 2) (Word.low s.cpu.regs.pc)
              else s.memory with
            interrupts := { c with requested := c.requested.erase x } } })) ∧
    (∀ y, y ∈ pending.members ↔ c.enabled.contains y = true ∧ c.requested.contains y = true) ∧
    pending.members.Pairwise (·.index < ·.index) ∧
    ∀ fs, let d := (s.passes fs).memory.interrupts
      d.enabled = c.enabled ∧ d.enableUpper = c.enableUpper ∧
      (∀ y, d.requested.contains y =
        (c.requested.contains y && !decide (y ∈ pending.members.take fs.length))) ∧
      d.pending.members = pending.members.drop fs.length := by
  intro c pending
  refine ⟨fun hnone => ?_, ?_, fun y => ?_, pending.pairwise_members, fun fs => ?_⟩
  · have hfirst : (Memory.controller s.memory).pending.first? = none :=
      (Sources.first?_eq_none_iff _).mpr hnone
    exact ⟨service_of_not_pending hfirst, fun hhalted => idle_of_halted hhalted hfirst⟩
  · rintro ⟨y, hy⟩
    cases hm : pending.members with
    | nil =>
      have hmem : y ∈ pending.members := (Sources.mem_members y).mpr hy
      rw [hm] at hmem
      cases hmem
    | cons x l =>
      have hx := Sources.lowest_of_members hm
      exact ⟨x, hx, service_of_lowest hx⟩
  · have hcontains : pending.contains y = (c.enabled.contains y && c.requested.contains y) :=
      Sources.contains_inter _ _ y
    rw [Sources.mem_members, hcontains, Bool.and_eq_true]
  · obtain ⟨hcontroller, hmembers⟩ := interrupts_passes s fs
    refine ⟨by rw [hcontroller], by rw [hcontroller], fun y => ?_, hmembers⟩
    rw [hcontroller]
    exact Sources.contains_foldl_erase _ _ y

/-- A halted processor with its stack at the lower end of the address space. -/
def haltedWith (c : InterruptController) : Core FlatMemory :=
  ⟨{ regs := { pc := 0x1234, sp := 1 }, ime := true, halted := true },
    { cells := fun _ => 0, interrupts := c }⟩

/-- Three sources are requested, and two of them are enabled. -/
def threeRequests : InterruptController where
  enabled := { stat := true, timer := true, joypad := true }
  requested := { vblank := true, stat := true, timer := true }

/-- What `service_drains` says about the halted processor, first with these requests, of which the
first to be served is the one of the display and the second the one of the timer, and then without
any. -/
theorem service_drains_halted :
    (threeRequests.pending.contains .stat = true ∧
      (haltedWith threeRequests).service = (24,
        { cpu := { regs := { pc := 0x48, sp := 0xFFFF } }
          memory := {
            cells := fun a => if a = 0xFFFF then 0x34 else if a = 0 then 0x12 else 0
            interrupts := { threeRequests with
              requested := { vblank := true, timer := true } } } }) ∧
      ((haltedWith threeRequests).passes [id, id]).memory.interrupts.pending.members = []) ∧
    ((∀ y, (haltedWith {}).memory.interrupts.pending.contains y = false) ∧
      (haltedWith {}).macroStep = haltedWith {} ∧ (haltedWith {}).macroCost = 4) := by
  have hstat : threeRequests.pending.contains .stat = true := by decide
  have hnone : ∀ y, (haltedWith {}).memory.interrupts.pending.contains y = false := by
    intro y
    cases y <;> rfl
  obtain ⟨-, hpending, -, -, hpasses⟩ := service_drains (haltedWith threeRequests)
  obtain ⟨x, hx, hservice⟩ := hpending ⟨.stat, hstat⟩
  obtain rfl : x = .stat := by
    have hfirst : (haltedWith threeRequests).memory.interrupts.pending.first? = some .stat := by
      decide
    rw [(Sources.first?_eq_some_iff _ x).mpr hx] at hfirst
    exact Option.some.inj hfirst
  obtain ⟨-, -, -, hmembers⟩ := hpasses [id, id]
  obtain ⟨hquiet, -⟩ := service_drains (haltedWith {})
  exact ⟨⟨hstat, hservice, hmembers⟩, hnone, (hquiet hnone).2 rfl⟩

end Core

end Handheld
