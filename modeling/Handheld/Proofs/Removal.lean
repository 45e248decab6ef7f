import Handheld.Proofs.Battery

/-!
# Taking a cartridge out

A cartridge leaves the console in two ways: `Console.unload` takes it out, and `Console.load` puts
another one in its place.  Both write its battery on the way, and the write can fail.

The main statement is `Console.removal_saves`.  The RAM of the cartridge is in its file afterwards,
or the call has failed, or the cartridge was replaced although its battery could not be written,
which is reported.  A call of `load` that fails leaves the cartridge where it was.  In the third
case the RAM is lost (`Console.removal_loses_ram`).
-/

namespace Handheld

/-! ### The journal -/

namespace Journal

/-- Noting a diagnostic does not change what is kept. -/
@[simp] lemma keeps_note (j : Journal) (d : Diagnostic) (l : Level) :
    (j.note d).keeps l = j.keeps l := by
  unfold note
  split
  · rfl
  · rfl

/-- Noting a diagnostic that there may be does not change what is kept. -/
@[simp] lemma keeps_note? (j : Journal) (d : Option Diagnostic) (l : Level) :
    (j.note? d).keeps l = j.keeps l := by
  cases d with
  | none => rfl
  | some d => exact keeps_note j d l

/-- A diagnostic of a level that is kept is in the journal. -/
lemma mem_note {j : Journal} {d : Diagnostic} (h : j.keeps d.level = true) :
    d ∈ (j.note d).entries := by
  rw [note, if_pos h]
  exact List.mem_cons_self

end Journal

/-! ### The battery -/

namespace Machine

variable {m : Machine} {file : String} {ram : Array UInt8}

/-- A battery keeps the RAM that there is, in a file that there is. -/
lemma kept?_eq_some_iff : m.kept? = some (file, ram) ↔ m.batteryFile = some file ∧
    m.cartridge.header.battery = true ∧ m.cartridge.ram.isEmpty = false ∧
    m.cartridge.ram = ram := by
  unfold kept?
  cases m.batteryFile with
  | none => simp
  | some file' =>
    cases m.cartridge.header.battery <;> cases m.cartridge.ram.isEmpty <;> simp

/-- A battery that has something to keep is written, or the write fails. -/
lemma flushBattery_cases (hkept : m.kept? = some (file, ram)) (disk : Disk) :
    (∃ disk', disk.write file ram = .ok disk' ∧
      m.flushBattery disk = .ok (disk', some (.batteryWritten file))) ∨
    ∃ fault, disk.write file ram = .error fault ∧ m.flushBattery disk = .error (.io fault) := by
  simp only [flushBattery, hkept]
  cases disk.write file ram with
  | ok disk' => exact .inl ⟨disk', rfl, rfl⟩
  | error fault => exact .inr ⟨fault, rfl, rfl⟩

end Machine

namespace Console

variable {η : Type} {c : Console η} {m : Machine} {file : String} {ram : Array UInt8}

/-! ### Both ways out -/

/-- Taking a cartridge out writes its battery, or fails as the write does. -/
lemma unload_cases (hm : c.machine = some m) (hkept : m.kept? = some (file, ram)) :
    (∃ disk, c.disk.write file ram = .ok disk ∧ c.unload.2.disk = disk) ∨
    ∃ fault, c.disk.write file ram = .error fault ∧ c.unload.2.disk = c.disk ∧
      c.unload.1 = .error (.io fault) := by
  unfold unload
  simp only [hm, note]
  rcases m.flushBattery_cases hkept c.disk with ⟨disk, hwrite, hflush⟩ | ⟨fault, hwrite, hflush⟩
  · simp only [hflush]
    exact .inl ⟨disk, hwrite, rfl⟩
  · simp only [hflush]
    exact .inr ⟨fault, hwrite, trivial, rfl⟩

/-- There is no cartridge after one was taken out, whether its battery could be written or not. -/
lemma machine_unload (hm : c.machine = some m) : c.unload.2.machine = none := by
  unfold unload
  simp only [hm, note]
  split
  · rfl
  · rfl

/-- Replacing a cartridge writes its battery, or reports that the write has failed. -/
lemma retire_cases (hm : c.machine = some m) (hkept : m.kept? = some (file, ram)) :
    (∃ disk, c.disk.write file ram = .ok disk ∧ c.retire.disk = disk) ∨
    ∃ fault, c.disk.write file ram = .error fault ∧ c.retire.disk = c.disk ∧
      (c.journal.keeps .warn = true → .batteryLost (.io fault) ∈ c.retire.journal.entries) := by
  unfold retire
  simp only [hm]
  rcases m.flushBattery_cases hkept c.disk with ⟨disk, hwrite, hflush⟩ | ⟨fault, hwrite, hflush⟩
  · simp only [hflush]
    exact .inl ⟨disk, hwrite, rfl⟩
  · simp only [hflush]
    exact .inr ⟨fault, hwrite, trivial, fun hwarn => Journal.mem_note hwarn⟩

/-- A cartridge is refused, and nothing but the journal changes; or it is inserted after the one
before it was replaced. -/
lemma load_cases (c : Console η) (image : Array UInt8) (boot : Option (Array UInt8))
    (file : Option String) :
    (∃ e, (c.load image boot file).1 = .error e ∧
      (c.load image boot file).2.machine = c.machine) ∨
    (c.load image boot file).1 = .ok () ∧ ∃ journal : Journal,
      (∀ l, journal.keeps l = c.journal.keeps l) ∧
      (c.load image boot file).2.disk = (retire { c with journal := journal }).disk ∧
      (c.load image boot file).2.journal = (retire { c with journal := journal }).journal := by
  unfold load
  cases Machine.build image boot c.config with
  | error e => exact .inl ⟨e, rfl, rfl⟩
  | ok fresh =>
    simp only [note]
    cases withKept { fresh with batteryFile := file } c.disk with
    | error e => exact .inl ⟨e, rfl, rfl⟩
    | ok kept =>
      refine .inr ⟨rfl, (c.journal.note (.cartridge fresh.cartridge.header)).note? kept.2, ?_, rfl,
        rfl⟩
      simp

/-- A battery that cannot be written when its cartridge is replaced leaves the disk as it is. -/
lemma disk_load_of_error {image : Array UInt8} {boot : Option (Array UInt8)}
    {file' : Option String} {fault : IoFault} (hm : c.machine = some m)
    (hkept : m.kept? = some (file, ram)) (hwrite : c.disk.write file ram = .error fault)
    (hload : (c.load image boot file').1 = .ok ()) :
    (c.load image boot file').2.disk = c.disk := by
  rcases c.load_cases image boot file' with ⟨e, herror, -⟩ | ⟨-, journal, -, hdisk, -⟩
  · cases hload.symm.trans herror
  · rw [hdisk]
    rcases retire_cases (c := { c with journal := journal }) hm hkept with
      ⟨disk, hok, -⟩ | ⟨-, -, hkeeps, -⟩
    · cases hwrite.symm.trans hok
    · exact hkeeps

/-- A cartridge with a battery, RAM and a file, on its way out.  When it is taken out, its RAM is in
the file afterwards, or the write has failed and so has the call.  When another one is inserted, its
RAM is in the file afterwards, or the call has failed and the cartridge is still there, or the write
has failed, which is reported. -/
theorem removal_saves (hm : c.machine = some m) (hfile : m.batteryFile = some file)
    (hbattery : m.cartridge.header.battery = true) (hram : m.cartridge.ram.isEmpty = false) :
    (c.unload.2.disk.read file = .ok m.cartridge.ram ∨
      ∃ fault, c.disk.write file m.cartridge.ram = .error fault ∧
        c.unload.1 = .error (.io fault)) ∧
    ∀ image boot file',
      let after := c.load image boot file'
      after.2.disk.read file = .ok m.cartridge.ram ∨
      (∃ e, after.1 = .error e ∧ after.2.machine = some m) ∨
      ∃ fault, c.disk.write file m.cartridge.ram = .error fault ∧ after.1 = .ok () ∧
        (c.journal.keeps .warn = true → .batteryLost (.io fault) ∈ after.2.journal.entries) := by
  have hkept := Machine.kept?_eq_some_iff.mpr ⟨hfile, hbattery, hram, rfl⟩
  refine ⟨?_, fun image boot file' => ?_⟩
  · rcases unload_cases hm hkept with ⟨disk, hwrite, hdisk⟩ | ⟨fault, hwrite, -, hfail⟩
    · rw [hdisk]
      exact .inl (Disk.read_of_write hwrite)
    · exact .inr ⟨fault, hwrite, hfail⟩
  rcases c.load_cases image boot file' with
    ⟨e, herror, hmachine⟩ | ⟨hok, journal, hkeeps, hdisk, hjournal⟩
  · exact .inr (.inl ⟨e, herror, hmachine.trans hm⟩)
  · simp only [hok, hdisk, hjournal]
    rcases retire_cases (c := { c with journal := journal }) hm hkept with
      ⟨disk, hwrite, hdisk⟩ | ⟨fault, hwrite, -, hreport⟩
    · rw [hdisk]
      exact .inl (Disk.read_of_write hwrite)
    · exact .inr (.inr ⟨fault, hwrite, trivial, fun hwarn => hreport ((hkeeps .warn).trans hwarn)⟩)

/-- A write to an empty disk does not fail. -/
lemma write_saving (hdisk : (saving batteryImage).disk = unused.disk) :
    ∃ disk, (saving batteryImage).disk.write "f" savedRam = .ok disk := by
  rw [hdisk]
  exact ⟨unused.disk.put ["f"] (.file savedRam), rfl⟩

/-- What `removal_saves` says about a cartridge whose RAM was written, and whose file can be
written. -/
theorem removal_saves_saving : ∃ m, (saving batteryImage).machine = some m ∧
    m.batteryFile = some "f" ∧ m.cartridge.header.battery = true ∧
    m.cartridge.ram.isEmpty = false ∧
    (saving batteryImage).unload.2.disk.read "f" = .ok savedRam ∧
    ((saving batteryImage).load Cartridge.plainImage).2.disk.read "f" = .ok savedRam := by
  obtain ⟨header, hparse, hkind, hbattery, hsize⟩ := parse_batteryImage
  obtain ⟨hdisk, m, hmachine, hkept⟩ := machine_saving hparse hkind hbattery hsize
  obtain ⟨hfile, hbattery', hram, hsaved⟩ := Machine.kept?_eq_some_iff.mp hkept
  obtain ⟨hunload, hload⟩ := removal_saves hmachine hfile hbattery' hram
  obtain ⟨disk, hwrite⟩ := write_saving hdisk
  rw [hsaved] at hunload hload
  refine ⟨m, hmachine, hfile, hbattery', hram, ?_, ?_⟩
  · rcases hunload with hread | ⟨fault, hfault, -⟩
    · exact hread
    · cases hwrite.symm.trans hfault
  · obtain ⟨hok, -⟩ := load_plainImage (saving batteryImage)
    rcases hload Cartridge.plainImage none none with hread | ⟨e, herror, -⟩ | ⟨fault, hfault, -⟩
    · exact hread
    · cases hok.symm.trans herror
    · cases hwrite.symm.trans hfault

/-! ### A file that cannot be written -/

/-- A console with a cartridge whose RAM was written, after a directory was made in the place of
its file. -/
def blocked : Console Solitude :=
  { saving batteryImage with disk := unused.disk.put ["f"] .directory }

/-- The cartridge does not depend on the disk. -/
lemma machine_withDisk (c : Console η) (disk : Disk) :
    machine { c with disk := disk } = c.machine := rfl

/-- Nothing can be written where there is a directory. -/
lemma write_blocked (ram : Array UInt8) :
    blocked.disk.write "f" ram = .error .isDirectory := rfl

/-- Nothing can be read from a directory. -/
lemma read_blocked (ram : Array UInt8) : blocked.disk.read "f" ≠ .ok ram := nofun

/-- A cartridge whose file cannot be written loses its RAM when another one is inserted, and when it
is taken out. -/
theorem removal_loses_ram : ∃ m, blocked.machine = some m ∧ m.batteryFile = some "f" ∧
    m.cartridge.header.battery = true ∧ m.cartridge.ram.isEmpty = false ∧
    (blocked.load Cartridge.plainImage).1 = .ok () ∧
    (blocked.load Cartridge.plainImage).2.disk.read "f" ≠ .ok m.cartridge.ram ∧
    blocked.unload.2.machine = none ∧
    blocked.unload.2.disk.read "f" ≠ .ok m.cartridge.ram := by
  obtain ⟨header, hparse, hkind, hbattery, hsize⟩ := parse_batteryImage
  obtain ⟨-, m, hmachine, hkept⟩ := machine_saving hparse hkind hbattery hsize
  obtain ⟨hfile, hbattery', hram, -⟩ := Machine.kept?_eq_some_iff.mp hkept
  have hblocked : blocked.machine = some m :=
    (machine_withDisk (saving batteryImage) _).trans hmachine
  obtain ⟨hok, -⟩ := load_plainImage blocked
  refine ⟨m, hblocked, hfile, hbattery', hram, hok, ?_, machine_unload hblocked, ?_⟩
  · rw [disk_load_of_error hblocked hkept (write_blocked savedRam) hok]
    exact read_blocked m.cartridge.ram
  · rcases unload_cases hblocked hkept with ⟨disk, hwrite, -⟩ | ⟨fault, -, hkeeps, -⟩
    · cases (write_blocked savedRam).symm.trans hwrite
    · rw [hkeeps]
      exact read_blocked m.cartridge.ram

end Console

end Handheld
