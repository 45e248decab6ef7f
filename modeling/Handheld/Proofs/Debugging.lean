import Handheld.Console.Basic
import Mathlib.Tactic.Lemma

/-!
# Answers to a debugger

A debugger sends a request and gets a response.  `Console.Rejects` lists the requests that a console
does not accept; all others are carried out, and `Console.Effect` says what that means.  The
response to a request is a `Console.Answer`: either the request was rejected, and the console is as
it was, or it was carried out.

The main statement is `Console.debug_sound`.  It follows from `Console.answer_debug`, which says
that every response is such an answer; the handlers for reads, writes and the serial link are looked
at one by one.
-/

namespace Handheld

/-! ### What a request is for -/

namespace Debug.Request

variable {r : Request} {reg : RegisterId}

/-- The request names a register. -/
def Names (r : Request) (reg : RegisterId) : Prop :=
  r.address.toNat = registerSpace.toNat + reg.index

/-- A request is for an address of the bus, for a register, or for a register that there is not. -/
lemma target_cases (r : Request) :
    (r.registerIndex? = none ∧ r.address < registerSpace) ∨
    (∃ i reg, r.registerIndex? = some i ∧ Console.namedRegister? i = some reg ∧ r.Names reg) ∨
    (∃ i, r.registerIndex? = some i ∧ Console.namedRegister? i = none ∧ 0x10013 ≤ r.address) := by
  by_cases hspace : registerSpace ≤ r.address
  · have hindex : r.registerIndex? = some (r.address - registerSpace) := if_pos hspace
    have hsub : (r.address - registerSpace).toNat = r.address.toNat - 0x10000 :=
      UInt32.toNat_sub_of_le _ _ hspace
    have hle : 0x10000 ≤ r.address.toNat := UInt32.le_iff_toNat_le.mp hspace
    by_cases hcount : r.address.toNat - 0x10000 < RegisterId.all.length
    · have hreg : Console.namedRegister? (r.address - registerSpace) =
          some RegisterId.all[r.address.toNat - 0x10000] := by
        rw [Console.namedRegister?, RegisterId.ofIndex?, hsub, List.getElem?_eq_getElem hcount]
      have hall : ∀ (i : Nat) (h : i < RegisterId.all.length), RegisterId.all[i].index = i := by
        decide
      refine .inr (.inl ⟨_, _, hindex, hreg, ?_⟩)
      rw [Names, hall]
      exact (Nat.add_sub_cancel' hle).symm
    · refine .inr (.inr ⟨_, hindex, ?_, ?_⟩)
      · rw [Console.namedRegister?, RegisterId.ofIndex?, hsub]
        exact List.getElem?_eq_none (Nat.not_lt.mp hcount)
      · rw [RegisterId.length_all, RegisterId.count] at hcount
        rw [UInt32.le_iff_toNat_le]
        change 0x10013 ≤ r.address.toNat
        omega
  · exact .inl ⟨if_neg hspace, UInt32.not_le.mp hspace⟩

/-- A register is named by an address behind those of the bus, and before the end of the registers.
-/
lemma Names.bounds (h : r.Names reg) : ¬ r.address < registerSpace ∧ ¬ 0x10013 ≤ r.address := by
  have hindex : reg.index < 0x13 := by cases reg <;> decide
  have haddress : r.address.toNat = 0x10000 + reg.index := h
  rw [UInt32.lt_iff_toNat_lt, UInt32.le_iff_toNat_le]
  change ¬ r.address.toNat < 0x10000 ∧ ¬ 0x10013 ≤ r.address.toNat
  omega

/-- A request names at most one register. -/
lemma Names.unique {reg' : RegisterId} (h : r.Names reg) (h' : r.Names reg') : reg' = reg := by
  have hindex : reg'.index = reg.index := Nat.add_left_cancel (h'.symm.trans h)
  have hof := congrArg RegisterId.ofIndex? hindex
  rw [RegisterId.ofIndex?_index, RegisterId.ofIndex?_index] at hof
  exact Option.some.inj hof

/-- A register that there is not lies behind the addresses of the bus. -/
lemma not_lt_of_unknown (h : 0x10013 ≤ r.address) : ¬ r.address < registerSpace := by
  rw [UInt32.not_lt]
  exact UInt32.le_trans (by decide) h

end Debug.Request

/-! ### What can be refused -/

/-- A byte that arrives is refused unless an exchange is under way and the other side has the
clock. -/
lemma Serial.receive?_eq_none_iff (s : Serial) (v : UInt8) :
    s.receive? v = none ↔ s.sc &&& 0x81 ≠ 0x80 := by
  have hbits : ∀ n < 256, (n &&& 0x81 = 0x80 ↔ (n.testBit 7 && !n.testBit 0) = true) := by
    decide +kernel
  have hmask : s.sc &&& 0x81 = 0x80 ↔ (s.transferring && !s.internalClock) = true := by
    rw [← UInt8.toNat_inj, UInt8.toNat_and]
    exact hbits s.sc.toNat s.sc.toNat_lt
  rw [Ne, hmask, receive?]
  split
  · simp [*]
  · simp [*]

/-- A value is refused by a register exactly if it is too large. -/
lemma Machine.setRegister?_eq_none_iff (m : Machine) (r : RegisterId) (v : UInt32) :
    m.setRegister? r v = none ↔ r.maxValue < v := by
  cases r <;> simp [setRegister?, Processor.setRegister?]

namespace Console

variable {η : Type} {c : Console η} {m : Machine} {r : Debug.Request}

/-- The requests that a console does not accept: all of them without a cartridge, those for a
register that there is not, those to store a value that is too large, and those to deliver a byte
that nobody waits for. -/
def Rejects (c : Console η) (r : Debug.Request) : Prop :=
  c.machine = none ∨
  match r.action with
  | .nop | .cycle => False
  | .read => 0x10013 ≤ r.address
  | .write =>
    0x10013 ≤ r.address ∨
    (∃ reg, r.Names reg ∧ reg.maxValue < r.data) ∨
    (r.address < Debug.registerSpace ∧ 0xFF < r.data)
  | .serialIn => 0xFF < r.data ∨ ∃ m, c.machine = some m ∧ m.bus.serial.sc &&& 0x81 ≠ 0x80

/-- What carrying out a request does: the response holds the given number, and the console becomes
another one. -/
def Effect [Host η] (c : Console η) (r : Debug.Request) (data : UInt32) (c' : Console η) : Prop :=
  match r.action with
  | .nop => data = 0 ∧ c' = c
  | .cycle => c.stepOnce = (.ok data, c')
  | .read =>
    (∃ journal, c' = { c with journal := journal }) ∧
    (∀ reg, r.Names reg → c.register? reg = some data) ∧
    (r.address < Debug.registerSpace → data = (c.read r.address.toUInt16).1.toUInt32)
  | .write =>
    data = r.data ∧
    (∀ reg, r.Names reg → c.setRegister reg r.data = (true, c')) ∧
    (r.address < Debug.registerSpace → c' = c.write r.address.toUInt16 r.data.toUInt8)
  | .serialIn => ∃ out, c.deliver r.data.toUInt8 = some (out, c') ∧ data = out.toUInt32

/-- A response to a request, and the console after it. -/
inductive Answer [Host η] (c : Console η) (r : Debug.Request) : Debug.Response × Console η → Prop
  | rejected (h : c.Rejects r) : Answer c r (.invalid r.id, c)
  | done {data : UInt32} {c' : Console η} (h : ¬ c.Rejects r) (heffect : c.Effect r data c') :
    Answer c r (.ok r.id data, c')

/-! ### The handlers -/

/-- Looking at an address is noted at most. -/
lemma read_eq (c : Console η) (addr : UInt16) :
    ∃ journal, (c.read addr).2 = { c with journal := journal } := by
  unfold read
  split
  · exact ⟨_, rfl⟩
  · exact ⟨_, rfl⟩

section

variable [Host η] (hm : c.machine = some m)

include hm

/-- The answer to a request that reads. -/
lemma answer_debugRead (haction : r.action = .read) : c.Answer r (c.debugRead r) := by
  have hrejects : c.Rejects r ↔ 0x10013 ≤ r.address := by simp [Rejects, haction, hm]
  rcases r.target_cases with ⟨hindex, hbus⟩ | ⟨i, reg, hindex, hreg, hnames⟩ |
    ⟨i, hindex, hreg, hunknown⟩
  · simp only [debugRead, hindex]
    refine .done (fun h => Debug.Request.not_lt_of_unknown (hrejects.mp h) hbus) ?_
    simp only [Effect, haction]
    exact ⟨c.read_eq _, fun reg hnames => absurd hbus hnames.bounds.1, fun _ => trivial⟩
  · have hvalue : c.register? reg = some (m.register reg) := by rw [register?, hm, Option.map_some]
    simp only [debugRead, hindex, hreg, Option.bind_some, hvalue]
    refine .done (fun h => hnames.bounds.2 (hrejects.mp h)) ?_
    simp only [Effect, haction]
    refine ⟨⟨c.journal, rfl⟩, fun reg' hnames' => ?_, fun hbus => absurd hbus hnames.bounds.1⟩
    rw [hnames.unique hnames', hvalue]
  · simp only [debugRead, hindex, hreg, Option.bind_none]
    exact .rejected (hrejects.mpr hunknown)

/-- The answer to a request that writes. -/
lemma answer_debugWrite (haction : r.action = .write) : c.Answer r (c.debugWrite r) := by
  have hrejects : c.Rejects r ↔ 0x10013 ≤ r.address ∨
      (∃ reg, r.Names reg ∧ reg.maxValue < r.data) ∨
      (r.address < Debug.registerSpace ∧ 0xFF < r.data) := by simp [Rejects, haction, hm]
  rcases r.target_cases with ⟨hindex, hbus⟩ | ⟨i, reg, hindex, hreg, hnames⟩ |
    ⟨i, hindex, hreg, hunknown⟩
  · simp only [debugWrite, hindex]
    split
    · rename_i hwide
      exact .rejected (hrejects.mpr (.inr (.inr ⟨hbus, hwide⟩)))
    · rename_i hfits
      refine .done ?_ ?_
      · rw [hrejects]
        rintro (hunknown | ⟨reg, hnames, -⟩ | ⟨-, hwide⟩)
        · exact Debug.Request.not_lt_of_unknown hunknown hbus
        · exact hnames.bounds.1 hbus
        · exact hfits hwide
      · simp only [Effect, haction]
        exact ⟨trivial, fun reg hnames => absurd hbus hnames.bounds.1, fun _ => trivial⟩
  · have hnone := m.setRegister?_eq_none_iff reg r.data
    cases hstore : m.setRegister? reg r.data with
    | none =>
      have hset : c.setRegister reg r.data = (false, c) := by
        rw [setRegister, hm, Option.bind_some, hstore]
      simp only [debugWrite, hindex, hreg, hset]
      exact .rejected (hrejects.mpr (.inr (.inl ⟨reg, hnames, hnone.mp hstore⟩)))
    | some m' =>
      have hset : c.setRegister reg r.data = (true, { c with machine := some m' }) := by
        rw [setRegister, hm, Option.bind_some, hstore]
      simp only [debugWrite, hindex, hreg, hset]
      have hfits : ¬ reg.maxValue < r.data := by
        rw [← hnone, hstore]
        exact Option.some_ne_none m'
      refine .done ?_ ?_
      · rw [hrejects]
        rintro (hunknown | ⟨reg', hnames', hwide⟩ | ⟨hbus, -⟩)
        · exact hnames.bounds.2 hunknown
        · rw [hnames.unique hnames'] at hwide
          exact hfits hwide
        · exact hnames.bounds.1 hbus
      · simp only [Effect, haction]
        refine ⟨trivial, fun reg' hnames' => ?_, fun hbus => absurd hbus hnames.bounds.1⟩
        rw [hnames.unique hnames', hset]
  · simp only [debugWrite, hindex, hreg]
    exact .rejected (hrejects.mpr (.inl hunknown))

/-- The answer to a request that delivers a byte at the serial link. -/
lemma answer_debugSerialIn (haction : r.action = .serialIn) :
    c.Answer r (c.debugSerialIn r) := by
  have hrejects : c.Rejects r ↔ 0xFF < r.data ∨ m.bus.serial.sc &&& 0x81 ≠ 0x80 := by
    simp [Rejects, haction, hm]
  have hnone := m.bus.serial.receive?_eq_none_iff r.data.toUInt8
  simp only [debugSerialIn]
  split
  · rename_i hwide
    exact .rejected (hrejects.mpr (.inl hwide))
  · rename_i hfits
    cases hreceive : m.bus.serial.receive? r.data.toUInt8 with
    | none =>
      have hdeliver : c.deliver r.data.toUInt8 = none := by simp [deliver, hm, hreceive]
      rw [hdeliver]
      exact .rejected (hrejects.mpr (.inr (hnone.mp hreceive)))
    | some received =>
      have hawaited : ¬ m.bus.serial.sc &&& 0x81 ≠ 0x80 := by
        rw [← hnone, hreceive]
        exact Option.some_ne_none received
      have hsome : ∃ out c', c.deliver r.data.toUInt8 = some (out, c') := by
        simp [deliver, hm, hreceive]
      obtain ⟨out, c', hdeliver⟩ := hsome
      rw [hdeliver]
      refine .done (fun h => (hrejects.mp h).elim hfits hawaited) ?_
      simp only [Effect, haction]
      exact ⟨out, hdeliver, rfl⟩

end

/-! ### Soundness -/

/-- Every response is an answer. -/
theorem answer_debug [Host η] (c : Console η) (r : Debug.Request) : c.Answer r (c.debug r) := by
  obtain ⟨config, machine, host, disk, journal⟩ := c
  cases machine with
  | none => exact .rejected (.inl rfl)
  | some m =>
    have hloaded : (⟨config, some m, host, disk, journal⟩ : Console η).isLoaded = true := rfl
    simp only [debug, hloaded, Bool.not_true, Bool.false_eq_true, if_false]
    cases haction : r.action with
    | nop =>
      refine .done (by simp [Rejects, haction]) ?_
      simp only [Effect, haction, and_self]
    | cycle =>
      refine .done (by simp [Rejects, haction]) ?_
      simp only [Effect, haction]
      rfl
    | read => exact answer_debugRead rfl haction
    | write => exact answer_debugWrite rfl haction
    | serialIn => exact answer_debugSerialIn rfl haction

/-- A response repeats the number of its request.  It is invalid exactly if the console does not
accept the request, and otherwise the request was carried out.  A rejected request changes nothing;
a request that does nothing or reads changes nothing but the journal, and in particular the host
does not hear of it. -/
theorem debug_sound [Host η] (c : Console η) (r : Debug.Request) :
    let response := (c.debug r).1
    let c' := (c.debug r).2
    response.id = r.id ∧
    (response.status = .invalid ↔ c.Rejects r) ∧
    (response.status = .success ↔ ¬ c.Rejects r) ∧
    (response.status = .invalid → c' = c) ∧
    (r.action = .nop ∨ r.action = .read → c'.machine = c.machine ∧ c'.host = c.host) ∧
    (response.status = .success → c.Effect r response.data c') := by
  have hanswer := c.answer_debug r
  generalize c.debug r = answer at hanswer ⊢
  cases hanswer with
  | rejected h =>
    exact ⟨rfl, iff_of_true rfl h, iff_of_false nofun (not_not_intro h), fun _ => rfl,
      fun _ => ⟨rfl, rfl⟩, nofun⟩
  | done h heffect =>
    refine ⟨rfl, iff_of_false nofun h, iff_of_true rfl h, nofun, ?_, fun _ => heffect⟩
    rintro (haction | haction)
    · simp only [Effect, haction] at heffect
      obtain ⟨-, rfl⟩ := heffect
      exact ⟨rfl, rfl⟩
    · simp only [Effect, haction] at heffect
      obtain ⟨⟨journal, rfl⟩, -⟩ := heffect
      exact ⟨rfl, rfl⟩

end Console

end Handheld
