import Handheld.Proofs.Cartridge.Acceptance
import Mathlib.Algebra.Group.Nat.Defs
import Mathlib.Data.List.Induction

/-!
# Bank selection

A bank controller keeps registers and two bank numbers that it computes from them.  What it shows is
nevertheless determined by the history of writes to ROM addresses: each register is the last value
that was written to its region (`ControlHistory.register`), and `ControlHistory.romSelect` and
`ControlHistory.ramSelect` say which banks these values ask for.

The main statement is `Mapper.selected_by_history`.  The proof follows the history write by write:
`Mapper.Traces` is what the controller remembers of it.
-/

namespace Handheld

/-! ### Histories -/

/-- The value of the last entry whose key has a property. -/
def latest? {κ α : Type} (p : κ → Bool) (entries : List (κ × α)) : Option α :=
  (entries.filter fun e => p e.1).getLast?.map Prod.snd

/-- An entry with the property comes after all others, and any other entry does not count. -/
lemma latest?_concat {κ α : Type} (p : κ → Bool) (entries : List (κ × α)) (k : κ) (a : α) :
    latest? p (entries ++ [(k, a)]) = if p k then some a else latest? p entries := by
  unfold latest?
  rw [List.filter_append]
  cases hk : p k with
  | true => simp [hk]
  | false => simp [hk]

/-- What a program has written to ROM addresses, the first write first. -/
abbrev ControlHistory := List (UInt16 × UInt8)

namespace ControlHistory

/-- The addresses from `first` on and before `limit`. -/
def region (first limit : Nat) (addr : UInt16) : Bool :=
  first ≤ addr.toNat && addr.toNat < limit

/-- Being in a region is a matter of two comparisons. -/
lemma region_iff {first limit : Nat} {addr : UInt16} :
    region first limit addr ↔ first ≤ addr.toNat ∧ addr.toNat < limit := by
  simp [region]

/-- The addresses before `0x4000` at which an MBC2 switches its RAM, or selects a ROM bank. -/
def nibbleRegion (select : Bool) (addr : UInt16) : Bool :=
  region 0 0x4000 addr && addr.toNat.testBit 8 == select

/-- The lowest bits of the last value that was written to a region, or an initial value. -/
def register (ws : ControlHistory) (p : UInt16 → Bool) (bits initial : Nat) : Nat :=
  match latest? p ws with
  | some v => v.toNat % 2 ^ bits
  | none => initial

/-- The addresses at which the RAM is switched. -/
def enableRegion : MapperKind → UInt16 → Bool
  | .none => fun _ => false
  | .mbc2 => nibbleRegion false
  | _ => region 0 0x2000

/-- The ROM bank that a history asks for. -/
def romSelect (ws : ControlHistory) : MapperKind → Nat
  | .none => 1
  | .mbc1 =>
    let low := ws.register (region 0x2000 0x4000) 7 1
    let high := ws.register (region 0x4000 0x6000) 2 0
    let mode := ws.register (region 0x6000 0x10000) 1 0
    let bank := if mode = 0 then low ||| high <<< 5 else low
    if bank = 0x00 ∨ bank = 0x20 ∨ bank = 0x40 ∨ bank = 0x60 then bank + 1 else bank
  | .mbc2 => max 1 (ws.register (nibbleRegion true) 4 1)
  | .mbc3 => max 1 (ws.register (region 0x2000 0x4000) 7 1)
  | .mbc5 =>
    ws.register (region 0x3000 0x4000) 1 0 * 256 + ws.register (region 0x2000 0x3000) 8 1

/-- The RAM bank that a history asks for. -/
def ramSelect (ws : ControlHistory) : MapperKind → Nat
  | .mbc1 =>
    if ws.register (region 0x6000 0x10000) 1 0 = 0 then 0
    else ws.register (region 0x4000 0x6000) 2 0
  | .mbc3 => ws.register (region 0x4000 0x6000) 2 0
  | .mbc5 => ws.register (region 0x4000 0x6000) 4 0
  | .none | .mbc2 => 0

/-- A write replaces the register of its region, and keeps all others. -/
lemma register_concat (ws : ControlHistory) (addr : UInt16) (v : UInt8) (p : UInt16 → Bool)
    (bits initial : Nat) :
    register (ws ++ [(addr, v)]) p bits initial =
      if p addr then v.toNat % 2 ^ bits else ws.register p bits initial := by
  unfold register
  rw [latest?_concat]
  cases p addr with
  | true => rfl
  | false => rfl

end ControlHistory

/-! ### Registers -/

namespace Controls

open ControlHistory

/-- The registers after a write, each by its own region. -/
def put (addr : UInt16) (v : UInt8) : Controls → Controls
  | none => none
  | mbc1 low high mode =>
    mbc1 (if region 0x2000 0x4000 addr then v &&& 0x7F else low)
      (if region 0x4000 0x6000 addr then v &&& 0x03 else high)
      (if region 0x6000 0x10000 addr then v &&& 0x01 else mode)
  | mbc2 bank => mbc2 (if nibbleRegion true addr then v &&& 0x0F else bank)
  | mbc3 rom ram =>
    mbc3 (if region 0x2000 0x4000 addr then v &&& 0x7F else rom)
      (if region 0x4000 0x6000 addr then v &&& 0x03 else ram)
  | mbc5 low high ram =>
    mbc5 (if region 0x2000 0x3000 addr then v else low)
      (if region 0x3000 0x4000 addr then v &&& 0x01 else high)
      (if region 0x4000 0x6000 addr then v &&& 0x0F else ram)

/-- Registers that hold what was written to their regions last. -/
def Traces (ws : ControlHistory) : Controls → Prop
  | none => True
  | mbc1 low high mode =>
    low.toNat = ws.register (region 0x2000 0x4000) 7 1 ∧
    high.toNat = ws.register (region 0x4000 0x6000) 2 0 ∧
    mode.toNat = ws.register (region 0x6000 0x10000) 1 0
  | mbc2 bank => bank.toNat = ws.register (nibbleRegion true) 4 1
  | mbc3 rom ram =>
    rom.toNat = ws.register (region 0x2000 0x4000) 7 1 ∧
    ram.toNat = ws.register (region 0x4000 0x6000) 2 0
  | mbc5 low high ram =>
    low.toNat = ws.register (region 0x2000 0x3000) 8 1 ∧
    high.toNat = ws.register (region 0x3000 0x4000) 1 0 ∧
    ram.toNat = ws.register (region 0x4000 0x6000) 4 0

variable {ws : ControlHistory} {c : Controls}

/-- Fresh registers trace the empty history. -/
lemma traces_fresh (kind : MapperKind) : (fresh kind).Traces [] := by
  cases kind with
  | none => exact trivial
  | mbc1 => exact ⟨rfl, rfl, rfl⟩
  | mbc2 => exact (rfl : (1 : UInt8).toNat = 1)
  | mbc3 => exact ⟨rfl, rfl⟩
  | mbc5 => exact ⟨rfl, rfl, rfl⟩

/-- A register that is replaced in its region traces the history. -/
lemma toNat_put {r x v : UInt8} {p : UInt16 → Bool} {bits initial : Nat}
    (hr : r.toNat = ws.register p bits initial) (hx : x.toNat = v.toNat % 2 ^ bits)
    (addr : UInt16) :
    (if p addr then x else r).toNat = register (ws ++ [(addr, v)]) p bits initial := by
  rw [register_concat]
  cases p addr with
  | true => exact hx
  | false => exact hr

/-- A mask takes the lowest bits of a byte. -/
lemma toNat_lowest (v : UInt8) :
    (v &&& 0x7F).toNat = v.toNat % 2 ^ 7 ∧ (v &&& 0x0F).toNat = v.toNat % 2 ^ 4 ∧
    (v &&& 0x03).toNat = v.toNat % 2 ^ 2 ∧ (v &&& 0x01).toNat = v.toNat % 2 ^ 1 :=
  ⟨(UInt8.toNat_and v 0x7F).trans (Nat.and_two_pow_sub_one_eq_mod v.toNat 7),
    (UInt8.toNat_and v 0x0F).trans (Nat.and_two_pow_sub_one_eq_mod v.toNat 4),
    (UInt8.toNat_and v 0x03).trans (Nat.and_two_pow_sub_one_eq_mod v.toNat 2),
    (UInt8.toNat_and v 0x01).trans (Nat.and_two_pow_sub_one_eq_mod v.toNat 1)⟩

/-- Registers keep tracing the history. -/
lemma Traces.put (hc : c.Traces ws) (addr : UInt16) (v : UInt8) :
    (c.put addr v).Traces (ws ++ [(addr, v)]) := by
  obtain ⟨h7, h4, h2, h1⟩ := toNat_lowest v
  have h8 : v.toNat = v.toNat % 2 ^ 8 := (Nat.mod_eq_of_lt v.toNat_lt).symm
  cases c with
  | none => exact trivial
  | mbc1 low high mode =>
    obtain ⟨hlow, hhigh, hmode⟩ := hc
    exact ⟨toNat_put hlow h7 addr, toNat_put hhigh h2 addr, toNat_put hmode h1 addr⟩
  | mbc2 bank => exact toNat_put (show bank.toNat = _ from hc) h4 addr
  | mbc3 rom ram =>
    obtain ⟨hrom, hram⟩ := hc
    exact ⟨toNat_put hrom h7 addr, toNat_put hram h2 addr⟩
  | mbc5 low high ram =>
    obtain ⟨hlow, hhigh, hram⟩ := hc
    exact ⟨toNat_put hlow h8 addr, toNat_put hhigh h1 addr, toNat_put hram h4 addr⟩

/-- Bank zero is replaced by the next one. -/
lemma orNext_eq_max (bank : Nat) : orNext bank = max 1 bank := by
  unfold orNext
  split <;> omega

/-- The registers ask for the ROM bank that the history asks for. -/
lemma Traces.romSelect_eq (hc : c.Traces ws) : c.romSelect = ws.romSelect c.kind := by
  cases c with
  | none => rfl
  | mbc1 low high mode =>
    obtain ⟨hlow, hhigh, hmode⟩ := hc
    have hzero : mode = 0 ↔ mode.toNat = 0 := UInt8.toNat_inj.symm
    have hshift : high.toNat * 32 = high.toNat <<< 5 := (Nat.shiftLeft_eq _ 5).symm
    simp only [romSelect, kind, ControlHistory.romSelect, ← hlow, ← hhigh, ← hmode, hzero, hshift,
      List.mem_cons, List.not_mem_nil, or_false]
  | mbc2 bank =>
    have hbank : bank.toNat = _ := hc
    simp only [romSelect, kind, ControlHistory.romSelect, orNext_eq_max, hbank]
  | mbc3 rom ram => simp only [romSelect, kind, ControlHistory.romSelect, orNext_eq_max, hc.1]
  | mbc5 low high ram =>
    obtain ⟨hlow, hhigh, hram⟩ := hc
    simp only [romSelect, kind, ControlHistory.romSelect, hlow, hhigh]

/-- The registers ask for the RAM bank that the history asks for. -/
lemma Traces.ramSelect_eq (hc : c.Traces ws) : c.ramSelect = ws.ramSelect c.kind := by
  cases c with
  | none | mbc2 => rfl
  | mbc1 low high mode =>
    obtain ⟨hlow, hhigh, hmode⟩ := hc
    have hzero : mode = 0 ↔ mode.toNat = 0 := UInt8.toNat_inj.symm
    simp only [ramSelect, kind, ControlHistory.ramSelect, ← hhigh, ← hmode, hzero]
  | mbc3 rom ram => exact hc.2
  | mbc5 low high ram => exact hc.2.2

end Controls

/-! ### Writes -/

namespace Mapper

open ControlHistory

variable {h : Header} {ws : ControlHistory} {m : Mapper}

/-- A write replaces the registers, and switches the RAM, by their regions. -/
lemma writeControl_regions (m : Mapper) (addr : UInt16) (v : UInt8) :
    (m.writeControl addr v).controls = m.controls.put addr v ∧
    (m.writeControl addr v).banks.ramOn =
      if enableRegion m.kind addr then v.toNat % 16 == 10 else m.banks.ramOn := by
  obtain ⟨banks, controls⟩ := m
  have haddr := addr.toNat_lt
  cases controls with
  | none => exact ⟨rfl, rfl⟩
  | mbc1 low high mode =>
    simp only [writeControl, Controls.put, kind, Controls.kind, enableRegion, region_iff,
      UInt16.lt_iff_toNat_lt, UInt16.reduceToNat]
    split
    · simp (disch := omega) only [if_pos, if_neg, latch, Banks.latch, and_self]
    split
    · simp (disch := omega) only [if_pos, if_neg, withControls, refresh, Banks.select, and_self]
    split
    · simp (disch := omega) only [if_pos, if_neg, withControls, refresh, Banks.select, and_self]
    · simp (disch := omega) only [if_pos, if_neg, withControls, refresh, Banks.select, and_self]
  | mbc2 bank =>
    simp only [writeControl, Controls.put, kind, Controls.kind, enableRegion, nibbleRegion,
      Bool.and_eq_true, beq_iff_eq, region_iff, ge_iff_le, UInt16.le_iff_toNat_le,
      UInt16.reduceToNat]
    split
    · simp (disch := omega) only [if_neg, and_self]
    cases addr.toNat.testBit 8 with
    | true =>
      simp (disch := omega) only [if_true, if_pos, and_true, withControls, refresh, Banks.select,
        reduceCtorEq, and_false, if_false, and_self]
    | false =>
      simp (disch := omega) only [if_pos, and_true, latch, Banks.latch, Bool.false_eq_true,
        and_false, if_false, and_self]
  | mbc3 rom ram =>
    simp only [writeControl, Controls.put, kind, Controls.kind, enableRegion, region_iff,
      UInt16.lt_iff_toNat_lt, UInt16.reduceToNat]
    split
    · simp (disch := omega) only [if_pos, if_neg, latch, Banks.latch, and_self]
    split
    · simp (disch := omega) only [if_pos, if_neg, withControls, refresh, Banks.select, and_self]
    split
    · simp (disch := omega) only [if_pos, if_neg, withControls, refresh, Banks.select, and_self]
    · simp (disch := omega) only [if_neg, and_self]
  | mbc5 low high ram =>
    simp only [writeControl, Controls.put, kind, Controls.kind, enableRegion, region_iff,
      UInt16.lt_iff_toNat_lt, UInt16.reduceToNat]
    split
    · simp (disch := omega) only [if_pos, if_neg, latch, Banks.latch, and_self]
    split
    · simp (disch := omega) only [if_pos, if_neg, withControls, refresh, Banks.select, and_self]
    split
    · simp (disch := omega) only [if_pos, if_neg, withControls, refresh, Banks.select, and_self]
    split
    · simp (disch := omega) only [if_pos, if_neg, withControls, refresh, Banks.select, and_self]
    · simp (disch := omega) only [if_neg, and_self]

/-- What a program has made of a controller. -/
def written (m : Mapper) (ws : ControlHistory) : Mapper :=
  ws.foldl (fun m w => m.writeControl w.1 w.2) m

/-- The last write comes last. -/
lemma written_concat (m : Mapper) (ws : ControlHistory) (addr : UInt16) (v : UInt8) :
    m.written (ws ++ [(addr, v)]) = (m.written ws).writeControl addr v :=
  List.foldl_concat _ _ _ _

/-- A controller after a history. -/
structure Traces (h : Header) (ws : ControlHistory) (m : Mapper) : Prop where
  wellFormed : m.WellFormed h
  controls : m.controls.Traces ws
  ramOn : m.banks.ramOn = (latest? (enableRegion h.kind) ws).any (·.toNat % 16 == 10)
  /-- Without a controller there is nothing to select. -/
  bare : m.kind = .none → m.banks = .fresh h.romBanks h.ramBanks

/-- A fresh controller has no history. -/
lemma traces_fresh (h : Header) : (fresh h).Traces h [] :=
  ⟨wellFormed_fresh h, Controls.traces_fresh h.kind, rfl, fun _ => rfl⟩

/-- A write becomes part of the history. -/
lemma Traces.writeControl (hm : m.Traces h ws) (addr : UInt16) (v : UInt8) :
    (m.writeControl addr v).Traces h (ws ++ [(addr, v)]) := by
  have hwell := hm.wellFormed.writeControl addr v
  obtain ⟨hcontrols, hramOn⟩ := m.writeControl_regions addr v
  refine ⟨hwell, ?_, ?_, fun hnone => ?_⟩
  · rw [hcontrols]
    exact hm.controls.put addr v
  · rw [hramOn, hm.ramOn, hm.wellFormed.kind, latest?_concat]
    split
    · rfl
    · rfl
  · have hkind : m.kind = .none := by rw [hm.wellFormed.kind, ← hwell.kind, hnone]
    have hsame : m.writeControl addr v = m := by
      obtain ⟨banks, controls⟩ := m
      cases controls with
      | none => rfl
      | _ => cases hkind
    rw [hsame]
    exact hm.bare hkind

/-- A controller traces what a program has written. -/
lemma traces_written (h : Header) (ws : ControlHistory) : ((fresh h).written ws).Traces h ws := by
  induction ws using List.reverseRecOn with
  | nil => exact traces_fresh h
  | append_singleton ws w ih =>
    rw [written_concat]
    exact ih.writeControl w.1 w.2

namespace Traces

/-- When the RAM is visible. -/
lemma ramEnabled_iff (hm : m.Traces h ws) : m.ramEnabled ↔
    h.kind = .none ∨ ∃ v, latest? (enableRegion h.kind) ws = some v ∧ v.toNat % 16 = 10 := by
  have hkind := hm.wellFormed.kind
  have hramOn := hm.ramOn
  rw [← hkind] at hramOn ⊢
  obtain ⟨banks, controls⟩ := m
  cases controls with
  | none => simp [ramEnabled, kind, Controls.kind]
  | _ =>
    have hon : banks.ramOn = _ := hramOn
    simp [ramEnabled, hon, kind, Controls.kind, Option.any_eq_true]

/-- Which ROM bank is visible. -/
lemma romBank_eq (hm : m.Traces h ws) : m.romBank = ws.romSelect h.kind % h.romBanks := by
  have hkind := hm.wellFormed.kind
  by_cases hnone : m.kind = .none
  · rw [romBank, hm.bare hnone, ← hkind, hnone]
    rfl
  · rw [romBank, (hm.wellFormed.selected hnone).1, hm.controls.romSelect_eq, hm.wellFormed.romCount,
      ← hkind, kind]

/-- Which RAM bank is visible. -/
lemma ramBank_eq (hm : m.Traces h ws) :
    m.ramBank = ws.ramSelect h.kind % max 1 h.ramBanks := by
  have hselected (hnone : m.kind ≠ .none) :
      m.banks.ram = ws.ramSelect m.kind % max 1 h.ramBanks := by
    rw [(hm.wellFormed.selected hnone).2, hm.wellFormed.ramCount, hm.controls.ramSelect_eq, kind]
  rw [← hm.wellFormed.kind]
  obtain ⟨banks, controls⟩ := m
  cases controls with
  | none | mbc2 => exact (Nat.zero_mod _).symm
  | mbc1 | mbc3 | mbc5 => exact hselected (by simp [kind, Controls.kind])

end Traces

end Mapper

/-! ### Accepted images -/

/-- An accepted image has ROM. -/
lemma Header.romBanks_pos {image : Array UInt8} {h : Header}
    (himage : Header.parse image = .ok h) : 0 < h.romBanks := by
  rw [(describes_of_parse himage).romBanks]
  exact Nat.two_pow_pos _

open ControlHistory in
/-- On an accepted cartridge, what a controller shows is a function of what was written to it: the
RAM if a controller without a switch or the last value in the switching region says so, and the
banks that the last values in the other regions ask for, modulo the banks that there are. -/
theorem Mapper.selected_by_history {image : Array UInt8} {h : Header}
    (himage : Header.parse image = .ok h) (ws : ControlHistory) :
    let m := (fresh h).written ws
    (m.ramEnabled ↔
      h.kind = .none ∨ ∃ v, latest? (enableRegion h.kind) ws = some v ∧ v.toNat % 16 = 10) ∧
    m.romBank = ws.romSelect h.kind % h.romBanks ∧
    m.ramBank = ws.ramSelect h.kind % max 1 h.ramBanks ∧
    m.romBank < h.romBanks ∧ m.ramBank < max 1 h.ramBanks := by
  intro m
  have hm : m.Traces h ws := traces_written h ws
  have hrom : m.romBank = ws.romSelect h.kind % h.romBanks := hm.romBank_eq
  have hram : m.ramBank = ws.ramSelect h.kind % max 1 h.ramBanks := hm.ramBank_eq
  refine ⟨hm.ramEnabled_iff, hrom, hram, ?_, ?_⟩
  · rw [hrom]
    exact Nat.mod_lt _ (Header.romBanks_pos himage)
  · rw [hram]
    exact Nat.mod_lt _ (by omega)

/-- An MBC1 that is asked for ROM bank `0x40` and RAM bank 2 in the RAM mode, with two banks of ROM
and four banks of RAM, shows the last one of the former and the third one of the latter. -/
theorem Mapper.selected_by_history_mbc1 : ∃ h,
    Header.parse (Cartridge.codedImage 0x03 0x03) = .ok h ∧
    let m := (fresh h).written [(0x6000, 1), (0x4000, 2), (0x2000, 0x40), (0, 0x0A)]
    m.ramEnabled ∧ m.romBank = 1 ∧ m.ramBank = 2 := by
  obtain ⟨h, hparse, hkind, -, hromBanks, hramBanks⟩ := Cartridge.parse_codedImage
    (show MapperKind.ofCode? 0x03 = some (.mbc1, true) by decide)
    (show Header.ramBanks? 0x03 = some 4 by decide)
  obtain ⟨henabled, hrom, hram, -, -⟩ :=
    selected_by_history hparse [(0x6000, 1), (0x4000, 2), (0x2000, 0x40), (0, 0x0A)]
  refine ⟨h, hparse, henabled.mpr (.inr ⟨0x0A, ?_, by decide⟩), hrom.trans ?_, hram.trans ?_⟩
  · rw [hkind]
    decide
  · rw [hkind, hromBanks]
    decide
  · rw [hkind, hramBanks]
    decide

end Handheld
