import Handheld.Machine
import Handheld.Proofs.Core.Control
import Handheld.Proofs.Saved.Bus

/-!
# Saving and restoring a machine

`Machine.WellFormed` is the invariant of a machine that is compared with the one that was there
when the cartridge was inserted: its bus is well-formed, and its processor is traced or not as the
settings said.  It survives every step (`Machine.WellFormed.step`) and everything else that can
happen to a machine.  The main statement is `Machine.restored_save`: the saved state of a
well-formed machine, restored into a fresh machine with the same cartridge, is the same machine,
except that the file of the battery is not part of it.  What it needs of the display is only that it
is acceptable (`Machine.restored_save_of_acceptable`); a display behind the last line is refused
(`Machine.restored_save_of_lastLine_lt`).
-/

namespace Handheld

namespace Machine

/-- A machine whose display has a given property and whose other parts can be saved, compared with
the one that was there when the cartridge was inserted. -/
structure WellFormed (P : Display → Prop) (m m₀ : Machine) : Prop where
  bus : m.bus.WellFormed P m₀.bus
  trace : m.cpu.trace = m₀.cpu.trace

variable {P Q : Display → Prop} {m m₀ s t : Machine}

/-- A machine that has just been switched on with an accepted image. -/
def switchedOn (header : Header) (image : Array UInt8) (boot : Option (Array UInt8))
    (config : Config) : Machine where
  cpu := { (if boot.isSome then {} else .postBoot : Processor) with
    trace := config.traceInstructions }
  bus := .create {
    header := header, rom := image, ram := Array.replicate header.ramSize 0
    mapper := .fresh header } boot config

/-- A machine is built from an accepted image and a start-up program of the right size, or none. -/
lemma build_eq_ok_iff {image : Array UInt8} {boot : Option (Array UInt8)} {config : Config} :
    build image boot config = .ok m ↔ checkBoot boot = .ok () ∧
      ∃ header, Header.parse image = .ok header ∧ m = switchedOn header image boot config := by
  unfold build Cartridge.ofImage
  cases checkBoot boot with
  | error e => simp [bind, Except.bind]
  | ok u =>
    cases Header.parse image with
    | error e => simp [bind, Except.bind]
    | ok header =>
      simp only [bind, Except.bind, pure, Except.pure, Except.ok.injEq, true_and,
        exists_eq_left']
      exact eq_comm

/-- A machine that has just been switched on can be saved. -/
lemma wellFormed_build {image : Array UInt8} {boot : Option (Array UInt8)} {config : Config}
    (h : build image boot config = .ok m) : m.WellFormed Display.WellFormed m := by
  obtain ⟨-, header, -, rfl⟩ := build_eq_ok_iff.mp h
  exact ⟨Bus.wellFormed_create (Cartridge.wellFormed_fresh header image _) boot config, rfl⟩

/-- An image with a good header is enough to build a machine without a start-up program. -/
lemma build_of_parse {image : Array UInt8} {header : Header} (h : Header.parse image = .ok header)
    (config : Config) :
    build image none config = .ok (switchedOn header image none config) :=
  build_eq_ok_iff.mpr ⟨rfl, header, h, rfl⟩

/-- A machine that has just been switched on has the image and the start-up program that it was
built from. -/
lemma source_build {image : Array UInt8} {boot : Option (Array UInt8)} {config : Config}
    (h : build image boot config = .ok m) : m.cartridge.rom = image ∧ m.bus.bootRom = boot := by
  obtain ⟨-, header, -, rfl⟩ := build_eq_ok_iff.mp h
  exact ⟨rfl, rfl⟩

/-- Storing a value into a register of a processor does not begin or end its tracing. -/
lemma trace_setRegister {p p' : Processor} {r : RegisterId} {v : UInt32}
    (h : p.setRegister? r v = some p') : p'.trace = p.trace := by
  simp only [Processor.setRegister?, Option.ite_none_left_eq_some] at h
  obtain ⟨-, h⟩ := h
  obtain rfl := Option.some.inj h
  cases r <;> rfl

/-- Storing a value into a register reaches the processor or the interrupt controller, and nothing
else. -/
lemma setRegister_cases {r : RegisterId} {v : UInt32} {m' : Machine}
    (h : m.setRegister? r v = some m') :
    (∃ cpu, m.cpu.setRegister? r v = some cpu ∧ m' = { m with cpu := cpu }) ∨
    (m' = { m with bus := { m.bus with interrupts := m.bus.interrupts.writeEnable v.toUInt8 } } ∨
      m' = { m with bus := { m.bus with
        interrupts := m.bus.interrupts.writeRequest v.toUInt8 } }) := by
  have hcpu : (m.cpu.setRegister? r v).map (fun cpu => { m with cpu := cpu }) = some m' →
      ∃ cpu, m.cpu.setRegister? r v = some cpu ∧ m' = { m with cpu := cpu } := by
    intro h
    obtain ⟨cpu, hstore, heq⟩ := Option.map_eq_some_iff.mp h
    exact ⟨cpu, hstore, heq.symm⟩
  cases r with
  | interruptEnable =>
    simp only [setRegister?, Option.ite_none_left_eq_some] at h
    exact .inr (.inl (Option.some.inj h.2).symm)
  | interruptRequest =>
    simp only [setRegister?, Option.ite_none_left_eq_some] at h
    exact .inr (.inr (Option.some.inj h.2).symm)
  | _ => exact .inl (hcpu h)

namespace WellFormed

/-- A weaker property of the display. -/
lemma mono (hm : m.WellFormed P m₀) (h : ∀ d, P d → Q d) : m.WellFormed Q m₀ :=
  ⟨hm.bus.mono h, hm.trace⟩

/-- A step keeps a machine well-formed. -/
theorem step {η : Type} [Host η] (hP : Display.Lasting P) (hm : m.WellFormed P m₀) (host : η)
    (journal : Journal) : (m.step host journal).machine.WellFormed P m₀ := by
  obtain ⟨cpu, bus, clock, batteryFile⟩ := m
  have hclosed := Bus.closed_wellFormed hP m₀.bus
  have hservice := hclosed.service (s := ⟨cpu, ⟨bus, journal⟩⟩) hm.bus
  have hstep := hclosed.step hservice
  have htrace : (Core.service (⟨cpu, ⟨bus, journal⟩⟩ : Core ReportingBus)).2.step.2.cpu.trace =
      m₀.cpu.trace := by
    rw [Core.trace_step, Core.trace_service]
    exact hm.trace
  refine ⟨hstep.advance hP _ host, ?_⟩
  simp only [Machine.step]
  split
  · exact htrace
  · exact htrace

/-- A write keeps a machine well-formed. -/
lemma write (hP : Display.Lasting P) (hm : m.WellFormed P m₀) (addr : UInt16) (v : UInt8) :
    ({ m with bus := m.bus.write addr v } : Machine).WellFormed P m₀ :=
  ⟨hm.bus.write hP addr v, hm.trace⟩

/-- Storing a value into a register keeps a machine well-formed. -/
lemma setRegister (hm : m.WellFormed P m₀) {r : RegisterId} {v : UInt32} {m' : Machine}
    (h : m.setRegister? r v = some m') : m'.WellFormed P m₀ := by
  rcases setRegister_cases h with ⟨cpu, hstore, rfl⟩ | rfl | rfl
  · exact ⟨hm.bus, (trace_setRegister hstore).trans hm.trace⟩
  · exact ⟨{ hm.bus with interrupts := InterruptController.wellFormed_writeEnable _ _ }, hm.trace⟩
  · exact ⟨{ hm.bus with interrupts := hm.bus.interrupts }, hm.trace⟩

/-- A byte that arrives at the serial link keeps a machine well-formed. -/
lemma receive (hm : m.WellFormed P m₀) {incoming out : UInt8} {serial : Serial}
    (h : m.bus.serial.receive? incoming = some (out, serial)) (x : Sources) :
    ({ m with bus := { m.bus with
      serial := serial, interrupts := m.bus.interrupts.raise x } } : Machine).WellFormed P m₀ :=
  ⟨{ hm.bus.raise x with serial := hm.bus.serial.receive h }, hm.trace⟩

/-- Other RAM of the same size keeps a machine well-formed. -/
lemma withRam (hm : m.WellFormed P m₀) {ram : Array UInt8} (h : ram.size = m.cartridge.ram.size) :
    (m.withRam ram).WellFormed P m₀ :=
  ⟨{ hm.bus with cartridge := hm.bus.cartridge.withRam h }, hm.trace⟩

/-- The file of the battery does not matter. -/
lemma withFile (hm : m.WellFormed P m₀) (file : Option String) :
    ({ m with batteryFile := file } : Machine).WellFormed P m₀ := ⟨hm.bus, hm.trace⟩

end WellFormed

/-! ### Restoring -/

lemma isLens_clock : IsLens Machine.clock fun clock m => { m with clock := clock } :=
  ⟨fun _ _ => rfl, fun _ _ _ => rfl, fun _ => rfl⟩

lemma isLens_bus : IsLens Machine.bus fun bus m => { m with bus := bus } :=
  ⟨fun _ _ => rfl, fun _ _ _ => rfl, fun _ => rfl⟩

lemma isLens_cpu : IsLens Machine.cpu fun cpu m => { m with cpu := cpu } :=
  ⟨fun _ _ => rfl, fun _ _ _ => rfl, fun _ => rfl⟩

/-- The saved form of the clock, the first part of the bus and the processor. -/
def frontRecord : Record Machine :=
  Clock.record.within (·.clock) (fun clock m => { m with clock := clock }) ++
  Bus.peripheralsRecord.within (·.bus) (fun bus m => { m with bus := bus }) ++
  Processor.record.within (·.cpu) (fun cpu m => { m with cpu := cpu })

/-- Everything before the second part of the bus goes over. -/
lemma carry?_frontRecord (hs : s.WellFormed P m₀) (ht : t.WellFormed Q m₀) :
    Record.carry? frontRecord s t = some { t with
      clock := s.clock
      bus := { t.bus with
        sound := s.bus.sound, joypad := s.bus.joypad
        serial := s.bus.serial, timer := s.bus.timer }
      cpu := { s.cpu with trace := t.cpu.trace } } := by
  have hclock := Record.carry?_part isLens_clock (s := s) (t := t) (Clock.carry?_record _ _)
  have hperipherals := Record.carry?_trans hclock (Record.carry?_part isLens_bus
    (Bus.carry?_peripheralsRecord hs.bus ht.bus))
  exact Record.carry?_trans hperipherals (Record.carry?_part isLens_cpu
    (Processor.carry?_record _ _))

/-- A machine with an acceptable display goes over to another one with the same cartridge. -/
lemma carry?_record (hs : s.WellFormed Display.Acceptable m₀) (ht : t.WellFormed P m₀) :
    Record.carry? (record s.cartridge) s t = some { s with batteryFile := t.batteryFile } := by
  have hbus : ({ t.bus with
      sound := s.bus.sound, joypad := s.bus.joypad
      serial := s.bus.serial, timer := s.bus.timer } : Bus).WellFormed P m₀.bus :=
    { ht.bus with
      sound := hs.bus.sound, joypad := hs.bus.joypad
      serial := hs.bus.serial, timer := hs.bus.timer }
  have hsystem := Record.carry?_trans (carry?_frontRecord hs ht)
    (Record.carry?_part isLens_bus (Bus.carry?_systemRecord hs.bus hbus))
  have htrace : t.cpu.trace = s.cpu.trace := ht.trace.trans hs.trace.symm
  refine hsystem.trans ?_
  simp only [htrace]

/-- The saved form depends on the kind of the bank controller only. -/
lemma record_congr {c c' : Cartridge} (h : c.mapper.kind = c'.mapper.kind) :
    record c = record c' := by
  simp only [record, Bus.systemRecord, Cartridge.mapperRecord, h]

/-- A saved state begins as it should. -/
lemma stateBody_save (m : Machine) : stateBody m.save = .ok ((record m.cartridge).save m) := by
  have hdrop : m.save.drop stateMagic.length = stateVersion :: (record m.cartridge).save m :=
    List.drop_left
  have htake : m.save.take stateMagic.length = stateMagic := List.take_left
  simp [stateBody, hdrop, htake]

/-- Restoring the saved state of a machine with an acceptable display gives the machine back. -/
theorem restored_save_of_acceptable (hs : s.WellFormed Display.Acceptable m₀)
    (ht : t.WellFormed P m₀) :
    restored t ((record s.cartridge).save s) = .ok { s with batteryFile := t.batteryFile } := by
  have hkind : t.cartridge.mapper.kind = s.cartridge.mapper.kind :=
    ht.bus.cartridge.mapper.kind.trans hs.bus.cartridge.mapper.kind.symm
  have hload := Record.load_save (carry?_record hs ht) []
  rw [List.append_nil] at hload
  rw [restored, record_congr hkind, hload]

/-- Restoring the saved state of a well-formed machine gives the machine back. -/
theorem restored_save (hs : s.WellFormed Display.WellFormed m₀) (ht : t.WellFormed P m₀) :
    restored t ((record s.cartridge).save s) = .ok { s with batteryFile := t.batteryFile } :=
  restored_save_of_acceptable (hs.mono fun _ hd => hd.toAcceptable) ht

/-- The saved state of a machine whose display is behind the last line is refused. -/
theorem restored_save_of_lastLine_lt (hs : s.WellFormed P m₀) (ht : t.WellFormed Q m₀)
    (hline : Display.lastLine < s.bus.display.line) :
    restored t ((record s.cartridge).save s) = .error (.component .displayLine) := by
  have hkind : t.cartridge.mapper.kind = s.cartridge.mapper.kind :=
    ht.bus.cartridge.mapper.kind.trans hs.bus.cartridge.mapper.kind.symm
  have hrefuses : Record.Refuses (record s.cartridge) s t .displayLine :=
    Record.refuses_trans (carry?_frontRecord hs ht) (Record.refuses_part isLens_bus
      (Bus.refuses_systemRecord hs.bus hline _))
  have hload := hrefuses []
  rw [List.append_nil] at hload
  rw [restored, record_congr hkind]
  split
  · rename_i heq
    rw [heq] at hload
    cases hload
  · rename_i heq
    rw [heq] at hload
    cases hload
  · rename_i heq
    rw [heq] at hload
    obtain rfl := Except.error.inj hload
    rfl

end Machine

end Handheld
