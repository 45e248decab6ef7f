import Handheld.Proofs.Core.Simulation
import Handheld.Proofs.Locality

/-!
# Memories out of reach

While it draws, the display keeps the video memory to itself, and it keeps the sprite memory already
while it looks for sprites: `Component.ReservedIn` names the modes.  What is stored there must then
make no difference to a program.

Two runs are compared that start with buses which differ in such a memory only (`Bus.Shielded`).
Every read gives the same byte (`Shielded.read_eq`).  A write may switch the display off, and so
open the memory; but it writes the same on both sides and leaves buses that are still equal but for
this memory (`EqualBut.write_eq`).  As no instruction reads anything after its first write, this is
enough for `Bus.step_of_reserved`, the main statement.
-/

namespace Handheld

/-- The modes in which the display keeps a memory to itself. -/
def Component.ReservedIn (c : Component) (m : Mode) : Prop :=
  match c with
  | videoRam => m = .transfer
  | spriteRam => m = .search ∨ m = .transfer
  | _ => False

namespace Bus

variable {c : Component} {m : Mode} {b t : Bus}

/-! ### Accesses -/

/-- Two buses that are equal, except perhaps for a memory that the display keeps to itself. -/
structure Shielded (c : Component) (b t : Bus) : Prop where
  equalBut : b.EqualBut c t
  enabled : b.display.enabled = true
  reserved : c.ReservedIn b.display.mode

/-- Every address reads the same. -/
theorem Shielded.read_eq (h : b.Shielded c t) (a : UInt16) : b.read a = t.read a := by
  obtain ⟨hequal, hon, hmode⟩ := h
  unfold read
  cases c with
  | videoRam =>
    obtain ⟨ram, rfl⟩ := hequal
    have hclosed : b.display.videoAccessible = false := by
      rw [Display.videoAccessible, hon, show b.display.mode = .transfer from hmode]
      rfl
    cases Location.ofAddress a with
    | videoRam i => simp only [hclosed, Bool.false_eq_true, if_false]
    | _ => rfl
  | spriteRam =>
    obtain ⟨ram, rfl⟩ := hequal
    have hclosed : b.display.oamAccessible = false := by
      rw [Display.oamAccessible, hon]
      rcases hmode with hsearch | htransfer
      · rw [hsearch]
        rfl
      · rw [htransfer]
        rfl
    cases Location.ofAddress a with
    | spriteRam i => simp only [hclosed, Bool.false_eq_true, if_false]
    | _ => rfl
  | _ => exact hmode.elim

/-- Whether or not the memory can be reached, the same is written to everything else. -/
theorem EqualBut.write_eq (hc : c.ReservedIn m) (h : b.EqualBut c t) (a : UInt16) (v : UInt8) :
    (b.write a v).EqualBut c (t.write a v) := by
  unfold write
  cases c with
  | videoRam | spriteRam =>
    obtain ⟨ram, rfl⟩ := h
    cases Location.ofAddress a with
    | videoRam i | spriteRam i | bootLatch =>
      dsimp only
      split
      · exact ⟨_, rfl⟩
      · exact ⟨_, rfl⟩
    | _ => exact ⟨_, rfl⟩
  | _ => exact hc.elim

/-- Whether or not the memory can be reached, the same is reported of every access. -/
lemma EqualBut.diagnostics_eq (hc : c.ReservedIn m) (h : b.EqualBut c t) (a : UInt16)
    (v : UInt8) : b.readDiagnostic? a = t.readDiagnostic? a ∧
      b.writeDiagnostic? a v = t.writeDiagnostic? a v := by
  cases c with
  | videoRam | spriteRam =>
    obtain ⟨ram, rfl⟩ := h
    exact ⟨rfl, rfl⟩
  | _ => exact hc.elim

/-! ### Steps -/

/-- As long as it only reads, a processor cannot tell the buses apart; then it writes, and they
remain equal but for the memory. -/
lemma phased_reserved (hc : c.ReservedIn m) : Memory.Phased
    (fun x y : ReportingBus => x.bus.Shielded c y.bus ∧ x.journal = y.journal)
    (fun x y : ReportingBus => x.bus.EqualBut c y.bus ∧ x.journal = y.journal) where
  read_fst := by
    rintro ⟨b, journal⟩ ⟨t, _⟩ a ⟨h, rfl⟩
    exact h.read_eq a
  read_snd := by
    rintro ⟨b, journal⟩ ⟨t, _⟩ a ⟨h, rfl⟩
    obtain ⟨hread, -⟩ := h.equalBut.diagnostics_eq hc a 0
    exact ⟨h, congrArg journal.note? hread⟩
  note := by
    rintro ⟨b, journal⟩ ⟨t, _⟩ d ⟨h, rfl⟩
    exact ⟨h, rfl⟩
  weaken := by
    rintro x y ⟨h, hjournal⟩
    exact ⟨h.equalBut, hjournal⟩
  write := by
    rintro ⟨b, journal⟩ ⟨t, _⟩ a v ⟨h, rfl⟩
    obtain ⟨-, hwrite⟩ := h.diagnostics_eq hc a v
    exact ⟨h.write_eq hc a v, congrArg journal.note? hwrite⟩
  report := by
    rintro ⟨b, journal⟩ ⟨t, _⟩ d ⟨h, rfl⟩
    exact ⟨h, rfl⟩

/-- While the display keeps a memory to itself, a step of the processor does not depend on what is
stored there.  On two buses that are equal but for this memory it has the same cost, makes the same
of the processor and reports the same, and the buses are then again equal but for this memory; also
if the instruction switches the display off. -/
theorem step_of_reserved (h : b.EqualBut c t) (hon : b.display.enabled = true)
    (hmode : c.ReservedIn b.display.mode) (cpu : Processor) (journal : Journal) :
    let first := (⟨cpu, ⟨b, journal⟩⟩ : Core ReportingBus).step
    let second := (⟨cpu, ⟨t, journal⟩⟩ : Core ReportingBus).step
    first.1 = second.1 ∧ first.2.cpu = second.2.cpu ∧
      first.2.memory.bus.EqualBut c second.2.memory.bus ∧
      first.2.memory.journal = second.2.memory.journal := by
  intro first second
  have hstart : (⟨cpu, ⟨b, journal⟩⟩ : Core ReportingBus).Related
      (fun x y : ReportingBus => x.bus.Shielded c y.bus ∧ x.journal = y.journal)
      ⟨cpu, ⟨t, journal⟩⟩ := ⟨rfl, ⟨h, hon, hmode⟩, rfl⟩
  obtain ⟨hcost, hcpu, hbus, hjournal⟩ := (phased_reserved hmode).step hstart
  exact ⟨hcost, hcpu, hbus, hjournal⟩

/-- A console whose display draws the first line. -/
def drawing (cartridge : Cartridge) : Bus :=
  { create cartridge none {} with display := { Display.postBoot with mode := .transfer } }

/-- Even a program that has jumped into the video memory cannot tell what is stored there. -/
theorem step_of_reserved_drawing : ∃ h, Header.parse Cartridge.plainImage = .ok h ∧
    let b := drawing ⟨h, Cartridge.plainImage, #[], .fresh h⟩
    let t := { b with videoRam := .replicate 0x2000 0x76 }
    let cpu := { Processor.postBoot with regs := { Registers.postBoot with pc := 0x8000 } }
    let first := (⟨cpu, ⟨b, {}⟩⟩ : Core ReportingBus).step
    let second := (⟨cpu, ⟨t, {}⟩⟩ : Core ReportingBus).step
    b.EqualBut .videoRam t ∧ b.videoRam ≠ t.videoRam ∧ b.display.enabled = true ∧
      Component.videoRam.ReservedIn b.display.mode ∧
      first.1 = second.1 ∧ first.2.cpu = second.2.cpu ∧
      first.2.memory.bus.EqualBut .videoRam second.2.memory.bus := by
  obtain ⟨h, hparse⟩ := Cartridge.parse_plainImage
  have hbut : (drawing ⟨h, Cartridge.plainImage, #[], .fresh h⟩).EqualBut .videoRam
      { drawing ⟨h, Cartridge.plainImage, #[], .fresh h⟩ with
        videoRam := .replicate 0x2000 0x76 } := ⟨_, rfl⟩
  have hne : (Vector.replicate 0x2000 0 : Vector UInt8 0x2000) ≠ .replicate 0x2000 0x76 := by
    intro heq
    have hcell := congrArg (fun ram => ram[0]) heq
    simp at hcell
  have hon : ({ Display.postBoot with mode := .transfer } : Display).enabled = true := by decide
  obtain ⟨hcost, hcpu, hbus, -⟩ := step_of_reserved hbut hon rfl
    { Processor.postBoot with regs := { Registers.postBoot with pc := 0x8000 } } {}
  exact ⟨h, hparse, hbut, hne, hon, rfl, hcost, hcpu, hbus⟩

end Bus

end Handheld
