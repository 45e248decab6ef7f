import Handheld.Bus
import Handheld.Proofs.Addresses
import Handheld.Proofs.Saved.Cartridge

/-!
# Writes stay where they belong

Every address has one owner or none.  `Component` lists the parts of the console that a program can
write to, `Component.Owns` says which addresses belong to each of them, and `Unowned` names the
addresses that belong to nobody.  Neither looks at the memory map.

`Bus.EqualBut` compares two buses apart from one component, down to the last field: the cartridge
image, the start-up program and the picture on the screen, which no program can write to, have to be
equal as well.  A write changes the owner of its address and nothing else (`Bus.equalBut_write`),
and a transfer into sprite memory changes this memory and its own state (`Bus.transfer_eq`).

The two memories of the console itself can be read at all times, so that a write is seen at once,
and nothing else is seen to change (`Bus.read_write_of_cell`).  An address of the work memory may
have a second one with the same cell, `0x2000` addresses away: this is `SameCell`.  The main
statement is `Bus.write_stays_local`.
-/

namespace Handheld

/-- What a program can write to. -/
inductive Component
  /-- The registers of the bank controller. -/
  | mapper
  | videoRam
  | cartridgeRam
  | workRam
  | spriteRam
  | joypad
  | serial
  | timer
  | interruptRequest
  | sound
  | dma
  /-- The registers of the display, without the picture. -/
  | display
  | bootLatch
  | highRam
  | interruptEnable

/-- The addresses that belong to a component. -/
def Component.Owns (c : Component) (n : Nat) : Prop :=
  match c with
  | mapper => n ≤ 0x7FFF
  | videoRam => 0x8000 ≤ n ∧ n ≤ 0x9FFF
  | cartridgeRam => 0xA000 ≤ n ∧ n ≤ 0xBFFF
  | workRam => 0xC000 ≤ n ∧ n ≤ 0xFDFF
  | spriteRam => 0xFE00 ≤ n ∧ n ≤ 0xFE9F
  | joypad => n = 0xFF00
  | serial => n = 0xFF01 ∨ n = 0xFF02
  | timer => 0xFF04 ≤ n ∧ n ≤ 0xFF07
  | interruptRequest => n = 0xFF0F
  | sound => 0xFF10 ≤ n ∧ n ≤ 0xFF3F
  | dma => n = 0xFF46
  | display => (0xFF40 ≤ n ∧ n ≤ 0xFF4B) ∧ n ≠ 0xFF46
  | bootLatch => n = 0xFF50
  | highRam => 0xFF80 ≤ n ∧ n ≤ 0xFFFE
  | interruptEnable => n = 0xFFFF

/-- The addresses that belong to nobody. -/
def Unowned (n : Nat) : Prop :=
  (0xFEA0 ≤ n ∧ n ≤ 0xFEFF) ∨ n = 0xFF03 ∨ (0xFF08 ≤ n ∧ n ≤ 0xFF0E) ∨
    (0xFF4C ≤ n ∧ n ≤ 0xFF4F) ∨ (0xFF51 ≤ n ∧ n ≤ 0xFF7F)

/-- Two addresses of the same cell: the first `0x1E00` cells of the work memory are visible a second
time. -/
def SameCell (a x : UInt16) : Prop :=
  a = x ∨ ∃ i < 0x1E00, (a.toNat = 0xC000 + i ∧ x.toNat = 0xE000 + i) ∨
    (a.toNat = 0xE000 + i ∧ x.toNat = 0xC000 + i)

/-- The cells of the memories that can always be read. -/
def Location.IsCell : Location → Prop
  | workRam _ | highRam _ => True
  | _ => False

/-- No address is forgotten. -/
lemma exists_owns_or_unowned (a : UInt16) :
    (∃ c : Component, c.Owns a.toNat) ∨ Unowned a.toNat := by
  have hlt := a.toNat_lt
  by_contra h
  obtain ⟨hnobody, hunowned⟩ := not_or.mp h
  have hnot (c : Component) : ¬ c.Owns a.toNat := fun hc => hnobody ⟨c, hc⟩
  have hmapper := hnot .mapper
  have hvideo := hnot .videoRam
  have hcartridge := hnot .cartridgeRam
  have hwork := hnot .workRam
  have hsprites := hnot .spriteRam
  have hjoypad := hnot .joypad
  have hserial := hnot .serial
  have htimer := hnot .timer
  have hrequest := hnot .interruptRequest
  have hsound := hnot .sound
  have hdma := hnot .dma
  have hdisplay := hnot .display
  have hlatch := hnot .bootLatch
  have hhigh := hnot .highRam
  have henable := hnot .interruptEnable
  simp only [Component.Owns, Unowned] at *
  omega

/-! ### The owner of an address -/

/-- No program can write to the picture. -/
lemma Display.frame_write (d : Display) (r v : UInt8) : (d.write r v).frame = d.frame := by
  unfold Display.write writeControl
  split
  · simp only
    split
    all_goals rfl
  all_goals rfl

namespace Bus

variable {b : Bus} {a x : UInt16} {v : UInt8}

/-- Two buses that are equal, except perhaps for one component. -/
def EqualBut (c : Component) (b t : Bus) : Prop :=
  match c with
  | .mapper => ∃ mapper, t = { b with cartridge := { b.cartridge with mapper := mapper } }
  | .videoRam => ∃ ram, t = { b with videoRam := ram }
  | .cartridgeRam => ∃ ram, t = { b with cartridge := { b.cartridge with ram := ram } }
  | .workRam => ∃ ram, t = { b with workRam := ram }
  | .spriteRam => ∃ ram, t = { b with spriteRam := ram }
  | .joypad => ∃ joypad, t = { b with joypad := joypad }
  | .serial => ∃ serial, t = { b with serial := serial }
  | .timer => ∃ timer, t = { b with timer := timer }
  | .interruptRequest =>
    ∃ requested, t = { b with interrupts := { b.interrupts with requested := requested } }
  | .sound => ∃ sound, t = { b with sound := sound }
  | .dma => ∃ dma, t = { b with dma := dma }
  | .display => ∃ display : Display, display.frame = b.display.frame ∧
    t = { b with display := display }
  | .bootLatch => ∃ active, t = { b with bootActive := active }
  | .highRam => ∃ ram, t = { b with highRam := ram }
  | .interruptEnable => ∃ enabled upper,
    t = { b with interrupts := { b.interrupts with enabled := enabled, enableUpper := upper } }

/-- A write changes nothing but the owner of its address. -/
theorem equalBut_write {c : Component} (h : c.Owns a.toNat) (b : Bus) (v : UInt8) :
    b.EqualBut c (b.write a v) := by
  unfold write
  cases c with
  | mapper =>
    rw [Location.ofAddress_rom (Nat.lt_succ_of_le h)]
    exact ⟨_, rfl⟩
  | videoRam =>
    obtain ⟨hlow, hhigh⟩ := h
    obtain ⟨i, hi⟩ := Location.exists_cell a 0x2000 0x8000 (by omega)
    rw [Location.ofAddress_videoRam hi]
    dsimp only
    split
    · exact ⟨_, rfl⟩
    · exact ⟨_, rfl⟩
  | cartridgeRam =>
    obtain ⟨hlow, hhigh⟩ := h
    rw [Location.ofAddress_cartridgeRam (by omega)]
    dsimp only [Cartridge.writeRam]
    split
    · exact ⟨_, rfl⟩
    · exact ⟨_, rfl⟩
  | workRam =>
    obtain ⟨hlow, hhigh⟩ := h
    by_cases hecho : a.toNat < 0xE000
    · obtain ⟨i, hi⟩ := Location.exists_cell a 0x2000 0xC000 (by omega)
      rw [Location.ofAddress_workRam hi]
      exact ⟨_, rfl⟩
    · obtain ⟨i, hi⟩ := Location.exists_cell a 0x2000 0xE000 (by omega)
      rw [Location.ofAddress_echo hi (by omega)]
      exact ⟨_, rfl⟩
  | spriteRam =>
    obtain ⟨hlow, hhigh⟩ := h
    obtain ⟨i, hi⟩ := Location.exists_cell a 0xA0 0xFE00 (by omega)
    rw [Location.ofAddress_spriteRam hi]
    dsimp only
    split
    · exact ⟨_, rfl⟩
    · exact ⟨_, rfl⟩
  | joypad =>
    rw [Location.ofAddress_joypad h]
    exact ⟨_, rfl⟩
  | serial =>
    rw [Location.ofAddress_serial h]
    exact ⟨_, rfl⟩
  | timer =>
    rw [Location.ofAddress_timer ⟨h.1, Nat.lt_succ_of_le h.2⟩]
    exact ⟨_, rfl⟩
  | interruptRequest =>
    rw [Location.ofAddress_interruptRequest h]
    exact ⟨_, rfl⟩
  | sound =>
    rw [Location.ofAddress_sound ⟨h.1, Nat.lt_succ_of_le h.2⟩]
    exact ⟨_, rfl⟩
  | dma =>
    rw [Location.ofAddress_dma h]
    exact ⟨_, rfl⟩
  | display =>
    obtain ⟨⟨hlow, hhigh⟩, hdma⟩ := h
    rw [Location.ofAddress_display ⟨hlow, Nat.lt_succ_of_le hhigh⟩ hdma]
    exact ⟨_, b.display.frame_write _ _, rfl⟩
  | bootLatch =>
    rw [Location.ofAddress_bootLatch h]
    dsimp only
    split
    · exact ⟨_, rfl⟩
    · exact ⟨_, rfl⟩
  | highRam =>
    obtain ⟨hlow, hhigh⟩ := h
    obtain ⟨i, hi⟩ := Location.exists_cell a 0x7F 0xFF80 (by omega)
    rw [Location.ofAddress_highRam hi]
    exact ⟨_, rfl⟩
  | interruptEnable =>
    rw [Location.ofAddress_interruptEnable h]
    exact ⟨_, _, rfl⟩

/-- Without an owner, a write changes nothing at all. -/
lemma write_of_unowned (h : Unowned a.toNat) (b : Bus) (v : UInt8) : b.write a v = b := by
  have hnothing : Location.ofAddress a = .unmapped := by
    rcases h with hgap | hlast
    · exact Location.ofAddress_gap ⟨hgap.1, Nat.lt_succ_of_le hgap.2⟩
    · exact Location.ofAddress_unused (by omega)
  rw [write, hnothing]

/-- A transfer into sprite memory changes only this memory and its own state. -/
theorem transfer_eq (n : Nat) (b : Bus) :
    ∃ ram dma, transfer n b = { b with spriteRam := ram, dma := dma } := by
  induction n generalizing b with
  | zero => exact ⟨b.spriteRam, b.dma, rfl⟩
  | succ n ih =>
    unfold transfer
    split
    · obtain ⟨ram, dma, h⟩ := ih b.transferByte
      exact ⟨ram, dma, h⟩
    · exact ⟨b.spriteRam, b.dma, rfl⟩

/-! ### The memories that can always be read -/

/-- What is written to a cell is read from it, and from nowhere else. -/
theorem read_write_of_cell (ha : (Location.ofAddress a).IsCell) (b : Bus) (v : UInt8)
    (x : UInt16) :
    (b.write a v).read x =
      if Location.ofAddress x = Location.ofAddress a then v else b.read x := by
  unfold write read
  cases hlocation : Location.ofAddress a with
  | workRam i =>
    cases Location.ofAddress x with
    | workRam j =>
      change (b.workRam.set i v i.isLt)[j.val] = if _ then v else b.workRam[j.val]
      rw [Vector.getElem_set]
      exact if_congr (by rw [Location.workRam.injEq, Fin.ext_iff, eq_comm]) rfl rfl
    | _ => rfl
  | highRam i =>
    cases Location.ofAddress x with
    | highRam j =>
      change (b.highRam.set i v i.isLt)[j.val] = if _ then v else b.highRam[j.val]
      rw [Vector.getElem_set]
      exact if_congr (by rw [Location.highRam.injEq, Fin.ext_iff, eq_comm]) rfl rfl
    | _ => rfl
  | _ =>
    rw [hlocation] at ha
    exact ha.elim

/-- The addresses of a cell of the work memory or of the high memory. -/
lemma sameCell_iff (h : Component.workRam.Owns a.toNat ∨ Component.highRam.Owns a.toNat) :
    (Location.ofAddress a).IsCell ∧
      (SameCell a x ↔ Location.ofAddress x = Location.ofAddress a) := by
  unfold SameCell
  rw [← UInt16.toNat_inj]
  rcases h with ⟨hlow, hhigh⟩ | ⟨hlow, hhigh⟩
  · by_cases hecho : a.toNat < 0xE000
    · obtain ⟨i, hi⟩ := Location.exists_cell a 0x2000 0xC000 (by omega)
      rw [Location.ofAddress_workRam hi, Location.ofAddress_eq_workRam_iff]
      refine ⟨trivial, ?_, ?_⟩
      · rintro (heq | ⟨j, hj, hcells | hcells⟩) <;> omega
      · rintro (heq | ⟨heq, hlt⟩)
        · exact .inl (hi.trans heq.symm)
        · exact .inr ⟨i, hlt, .inl ⟨hi, heq⟩⟩
    · obtain ⟨i, hi⟩ := Location.exists_cell a 0x2000 0xE000 (by omega)
      have hlt : i.val < 0x1E00 := by omega
      rw [Location.ofAddress_echo hi (by omega), Location.ofAddress_eq_workRam_iff]
      refine ⟨trivial, ?_, ?_⟩
      · rintro (heq | ⟨j, hj, hcells | hcells⟩) <;> omega
      · rintro (heq | ⟨heq, -⟩)
        · exact .inr ⟨i, hlt, .inr ⟨hi, heq⟩⟩
        · exact .inl (hi.trans heq.symm)
  · obtain ⟨i, hi⟩ := Location.exists_cell a 0x7F 0xFF80 (by omega)
    rw [Location.ofAddress_highRam hi, Location.ofAddress_eq_highRam_iff]
    refine ⟨trivial, ?_, fun heq => .inl (hi.trans heq.symm)⟩
    rintro (heq | ⟨j, hj, hcells | hcells⟩) <;> omega

/-- A write changes no component but the owner of its address, and nothing at all if there is none.
If the address belongs to the work memory or the high memory, the byte is then read at all addresses
of the same cell, and what is read at any other address is unchanged. -/
theorem write_stays_local (b : Bus) (a : UInt16) (v : UInt8) :
    ((∃ c : Component, c.Owns a.toNat) ∨ Unowned a.toNat) ∧
    (∀ c : Component, c.Owns a.toNat → b.EqualBut c (b.write a v)) ∧
    (Unowned a.toNat → b.write a v = b) ∧
    (Component.workRam.Owns a.toNat ∨ Component.highRam.Owns a.toNat → ∀ x : UInt16,
      (SameCell a x → (b.write a v).read x = v) ∧
      (¬ SameCell a x → (b.write a v).read x = b.read x)) := by
  refine ⟨exists_owns_or_unowned a, fun c h => equalBut_write h b v,
    fun h => write_of_unowned h b v, fun hmemory x => ?_⟩
  obtain ⟨hcell, hsame⟩ := sameCell_iff (x := x) hmemory
  rw [read_write_of_cell hcell, hsame]
  exact ⟨fun h => if_pos h, fun h => if_neg h⟩

/-- A byte that is written to the work memory is read at its second address and not next to it, and
a write to an address without an owner is lost. -/
theorem write_stays_local_echo : ∃ h, Header.parse Cartridge.plainImage = .ok h ∧
    let b := create ⟨h, Cartridge.plainImage, #[], .fresh h⟩ none {}
    Component.workRam.Owns (0xC123 : UInt16).toNat ∧ SameCell 0xC123 0xE123 ∧
      ¬ SameCell 0xC123 0xC124 ∧ Unowned (0xFEA0 : UInt16).toNat ∧
      b.EqualBut .workRam (b.write 0xC123 0x42) ∧ (b.write 0xC123 0x42).read 0xE123 = 0x42 ∧
      (b.write 0xC123 0x42).read 0xC124 = b.read 0xC124 ∧ b.write 0xFEA0 0 = b := by
  obtain ⟨h, hparse⟩ := Cartridge.parse_plainImage
  have howner : Component.workRam.Owns (0xC123 : UInt16).toNat := ⟨by decide, by decide⟩
  have hsame : SameCell 0xC123 0xE123 := .inr ⟨0x123, by decide, .inl ⟨rfl, rfl⟩⟩
  have hother : ¬ SameCell 0xC123 0xC124 := by
    rintro (heq | ⟨i, -, ⟨-, heq⟩ | ⟨heq, -⟩⟩)
    · exact absurd heq (by decide)
    · change 0xC124 = 0xE000 + i at heq
      omega
    · change 0xC123 = 0xE000 + i at heq
      omega
  have hnobody : Unowned (0xFEA0 : UInt16).toNat := .inl ⟨by decide, by decide⟩
  obtain ⟨-, hbut, -, hcells⟩ :=
    write_stays_local (create ⟨h, Cartridge.plainImage, #[], .fresh h⟩ none {}) 0xC123 0x42
  obtain ⟨-, -, hlost, -⟩ :=
    write_stays_local (create ⟨h, Cartridge.plainImage, #[], .fresh h⟩ none {}) 0xFEA0 0
  exact ⟨h, hparse, howner, hsame, hother, hnobody, hbut .workRam howner,
    (hcells (.inl howner) 0xE123).1 hsame, (hcells (.inl howner) 0xC124).2 hother, hlost hnobody⟩

end Bus

end Handheld
