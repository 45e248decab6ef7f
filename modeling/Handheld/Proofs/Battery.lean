import Handheld.Proofs.Saved.Console

/-!
# Inserting a cartridge over another one

A cartridge that is inserted while there is another one in the console meets the battery of the
other one on the disk.  `Console.load` reads the file of the new cartridge first, and writes the
battery of the old one afterwards; `Console.written?` is what it writes.

The main statement is `Console.load_coherent_iff`.  The RAM of the inserted cartridge is what its
file held before, and it is what its file holds afterwards exactly if the battery of the old
cartridge did not put something else into the same file.  When the same cartridge is inserted again
with the same file, it does (`Console.reload_loses_ram`).
-/

namespace Handheld

/-! ### Names and writes -/

namespace Disk

variable {d d' : Disk} {path p q : DiskPath} {name name' part : String} {content : Array UInt8}
  {e : DiskEntry}

/-- Only a directory can be entered. -/
lemma find?_of_enter (h : d.enter p part = .ok q) : d.find? p = some .directory := by
  unfold enter at h
  split at h
  · cases h
  · cases h
  · assumption

/-- A file that is put where there is no directory makes no directory. -/
lemma isDirectory_of_put
    (h : (d.put path (.file content)).find? p = some .directory) : d.find? p = some .directory := by
  by_cases hp : p = []
  · simp [find?, hp]
  · rw [find?_put d path p _ hp] at h
    split at h
    · cases h
    · exact h

/-- A file that is put somewhere opens no way that was closed before. -/
lemma walk_of_put {parts : List String}
    (h : (d.put path (.file content)).walk p parts = .ok q) : d.walk p parts = .ok q := by
  induction parts generalizing p with
  | nil => exact h
  | cons part parts ih =>
    simp only [walk, List.foldlM_cons] at h ⊢
    cases hstep : (d.put path (.file content)).enter p part with
    | error fault => simp [hstep, bind, Except.bind] at h
    | ok r =>
      have hput := find?_of_enter hstep
      have hfind := isDirectory_of_put hput
      have hstep' : d.enter p part = .ok r := by
        simpa only [enter, hput, hfind] using hstep
      rw [hstep] at h
      rw [hstep']
      exact ih h

/-- Names lead to the same paths after a file was put where there is no directory. -/
lemma locate_put_iff (hdir : d.find? path ≠ some .directory) :
    (d.put path (.file content)).locate name = .ok p ↔ d.locate name = .ok p := by
  unfold locate
  cases parts name with
  | error fault => simp [bind, Except.bind]
  | ok ps => exact ⟨walk_of_put, walk_put _ hdir⟩

/-- What a name belongs to is what is at the path that it leads to. -/
lemma entry_eq_ok_iff :
    d.entry name = .ok e ↔ ∃ p, d.locate name = .ok p ∧ d.find? p = some e := by
  unfold entry
  cases hp : d.locate name with
  | error fault => simp [bind, Except.bind]
  | ok p =>
    cases he : d.find? p with
    | none => simp [bind, Except.bind, he]
    | some e' => simp [bind, Except.bind, he]

/-- A name that belongs to something is a name on the disk. -/
lemma contains_eq_true_iff : d.contains name = true ↔ ∃ e, d.entry name = .ok e := by
  unfold contains
  cases d.entry name with
  | error fault => simp [Except.toOption]
  | ok e => simp [Except.toOption]

/-- What can be read is the content of a file. -/
lemma read_eq_ok_iff : d.read name = .ok content ↔ d.entry name = .ok (.file content) := by
  unfold read
  cases d.entry name with
  | error fault => simp [bind, Except.bind]
  | ok e =>
    cases e with
    | file content' => simp [bind, Except.bind]
    | directory => simp [bind, Except.bind]

/-- A name whose file can be read is a name on the disk. -/
lemma contains_of_read (h : d.read name = .ok content) : d.contains name = true :=
  contains_eq_true_iff.mpr ⟨_, read_eq_ok_iff.mp h⟩

/-- A write puts a file at the path of its name, where there is no directory. -/
lemma exists_put_of_write (h : d.write name content = .ok d') : ∃ path,
    d.locate name = .ok path ∧ d.find? path ≠ some .directory ∧
      d' = d.put path (.file content) := by
  unfold write at h
  unfold locate
  cases hparts : parts name with
  | error fault => simp [hparts, bind, Except.bind] at h
  | ok ps =>
    cases hwalk : d.walk [] (stem ps) with
    | error fault => simp [hparts, hwalk, bind, Except.bind] at h
    | ok path =>
      simp only [hparts, hwalk, bind, Except.bind] at h
      split at h
      · cases h
      · rename_i hok
        obtain ⟨hdir, hstem⟩ := not_or.mp hok
        rw [Decidable.not_not.mp hstem] at hwalk
        exact ⟨path, hwalk, hdir, (Except.ok.inj h).symm⟩

/-- What was written is read under every name that leads to the same path. -/
lemma read_of_write_same (h : d.write name content = .ok d')
    (hsame : d.locate name = d.locate name') : d'.read name' = .ok content := by
  obtain ⟨path, hpath, hdir, rfl⟩ := exists_put_of_write h
  have hne : path ≠ [] := fun hp => hdir (by simp [find?, hp])
  refine read_eq_ok_iff.mpr (entry_eq_ok_iff.mpr ⟨path, ?_, ?_⟩)
  · exact (locate_put_iff hdir).mpr (hsame ▸ hpath)
  · rw [find?_put d path path _ hne, if_pos rfl]

/-- A write keeps what all names belong to that lead elsewhere. -/
lemma entry_of_write_ne (h : d.write name content = .ok d')
    (hne : d.locate name ≠ d.locate name') : d'.entry name' = .ok e ↔ d.entry name' = .ok e := by
  obtain ⟨path, hpath, hdir, rfl⟩ := exists_put_of_write h
  have hkeep : ∀ p, d.locate name' = .ok p →
      (d.put path (.file content)).find? p = d.find? p := by
    intro p hp
    by_cases hroot : p = []
    · simp [find?, hroot]
    · rw [find?_put d path p _ hroot, if_neg]
      rintro rfl
      exact hne (hpath.trans hp.symm)
  rw [entry_eq_ok_iff, entry_eq_ok_iff]
  constructor
  · rintro ⟨p, hp, he⟩
    have hp' := (locate_put_iff hdir).mp hp
    exact ⟨p, hp', (hkeep p hp').symm.trans he⟩
  · rintro ⟨p, hp, he⟩
    exact ⟨p, (locate_put_iff hdir).mpr hp, (hkeep p hp).trans he⟩

end Disk

namespace Console

variable {η : Type} {c : Console η} {m : Machine} {disk : Disk} {file : String}

/-! ### The old cartridge -/

/-- What is written to the disk when the cartridge in a console is replaced: the name of the file,
the RAM of the old cartridge, and the disk with both. -/
def written? (c : Console η) : Option (String × Array UInt8 × Disk) :=
  (c.machine.bind Machine.kept?).bind fun kept =>
    (c.disk.write kept.1 kept.2).toOption.map fun disk => (kept.1, kept.2, disk)

/-- Replacing a cartridge does to the disk what its battery writes, and nothing else. -/
lemma disk_retire (c : Console η) :
    c.retire.disk = (c.written?.map fun w => w.2.2).getD c.disk := by
  obtain ⟨config, machine, host, disk, journal⟩ := c
  cases machine with
  | none => rfl
  | some m =>
    simp only [retire, written?, Machine.flushBattery, Option.bind_some]
    cases m.kept? with
    | none => rfl
    | some kept =>
      obtain ⟨g, ram⟩ := kept
      cases hwrite : disk.write g ram with
      | error fault => simp [hwrite, Except.toOption]
      | ok disk' => simp [hwrite, Except.toOption]

/-- What was written is a write to the disk. -/
lemma write_of_written {g : String} {ram : Array UInt8}
    (h : c.written? = some (g, ram, disk)) : c.disk.write g ram = .ok disk := by
  obtain ⟨⟨g', ram'⟩, -, h⟩ := Option.bind_eq_some_iff.mp h
  obtain ⟨disk', hwrite, h⟩ := Option.map_eq_some_iff.mp h
  simp only [Prod.mk.injEq] at h
  obtain ⟨rfl, rfl, rfl⟩ := h
  cases hw : c.disk.write g' ram' with
  | error fault => simp [hw, Except.toOption] at hwrite
  | ok disk'' => simpa [hw, Except.toOption] using hwrite

/-! ### The new cartridge -/

/-- The RAM of a new machine with a battery comes from its file, if there is one. -/
lemma ram_withKept {m' : Machine} {d : Option Diagnostic} (hfile : m.batteryFile = some file)
    (h : withKept m disk = .ok (m', d)) :
    m'.cartridge.header = m.cartridge.header ∧
      (m.cartridge.header.battery = true → disk.contains file = true →
        disk.read file = .ok m'.cartridge.ram) ∧
      (disk.contains file = false → m'.cartridge.ram = m.cartridge.ram) := by
  simp only [withKept, hfile] at h
  split at h
  · rename_i hkept
    obtain ⟨-, hcontains⟩ := Bool.and_eq_true_iff.mp hkept
    split at h
    · cases h
    · rename_i ram hread
      split at h
      · cases h
        refine ⟨rfl, fun _ _ => hread, fun hnone => ?_⟩
        rw [hcontains] at hnone
        cases hnone
      · cases h
  · rename_i hkept
    cases h
    refine ⟨rfl, fun hbattery hcontains => ?_, fun _ => rfl⟩
    exact absurd (Bool.and_eq_true_iff.mpr ⟨hbattery, hcontains⟩) hkept

/-- A cartridge that can be inserted was built from its image, got the RAM that its battery has
kept, and replaced the old one after that. -/
lemma withKept_of_load {image : Array UInt8} {boot : Option (Array UInt8)}
    (hload : (c.load image boot (some file)).1 = .ok ())
    (hm : (c.load image boot (some file)).2.machine = some m) : ∃ fresh d,
      Machine.build image boot c.config = .ok fresh ∧
      withKept { fresh with batteryFile := some file } c.disk = .ok (m, d) ∧
      (c.load image boot (some file)).2.disk = c.retire.disk := by
  unfold load at hload hm ⊢
  cases hbuild : Machine.build image boot c.config with
  | error e => simp [hbuild] at hload
  | ok fresh =>
    simp only [hbuild] at hload hm ⊢
    cases hkept : withKept { fresh with batteryFile := some file } c.disk with
    | error e => simp [note, hkept] at hload
    | ok kept =>
      obtain ⟨m', d⟩ := kept
      simp only [note, hkept, Option.some.injEq] at hm
      subst hm
      refine ⟨fresh, d, rfl, hkept, ?_⟩
      simp only [note, hkept, disk_retire]
      rfl

/-- A cartridge can be inserted if a machine can be built and nothing has the name of the file. -/
lemma load_of_absent {image : Array UInt8} {boot : Option (Array UInt8)}
    (hbuild : Machine.build image boot c.config = .ok m) (habsent : c.disk.contains file = false) :
    (c.load image boot (some file)).1 = .ok () ∧
      (c.load image boot (some file)).2.disk = c.retire.disk ∧
      (c.load image boot (some file)).2.machine = some { m with batteryFile := some file } := by
  unfold load
  simp only [hbuild, withKept, note, habsent, Bool.and_false, Bool.false_eq_true, if_false]
  refine ⟨trivial, ?_, trivial⟩
  rw [disk_retire, disk_retire]
  rfl

/-! ### Both -/

/-- A cartridge with a battery has after its insertion the RAM that its file held before, or zeros
if there was no file.  Its file, if there is one afterwards, holds the same exactly if the battery
of the cartridge that was replaced has not put anything else there. -/
theorem load_coherent_iff {image : Array UInt8} {boot : Option (Array UInt8)}
    (hload : (c.load image boot (some file)).1 = .ok ())
    (hm : (c.load image boot (some file)).2.machine = some m)
    (hbattery : m.cartridge.header.battery = true) :
    let after := (c.load image boot (some file)).2.disk
    (∀ ram, c.disk.read file = .ok ram → m.cartridge.ram = ram) ∧
    (c.disk.contains file = false →
      m.cartridge.ram = Array.replicate m.cartridge.header.ramSize 0) ∧
    ((after.contains file = true → after.read file = .ok m.cartridge.ram) ↔
      ∀ g ram disk, c.written? = some (g, ram, disk) → c.disk.locate g = c.disk.locate file →
        ram = m.cartridge.ram) := by
  intro after
  obtain ⟨fresh, d, hbuild, hkept, hdisk⟩ := withKept_of_load hload hm
  obtain ⟨hheader, hread, hzero⟩ := ram_withKept rfl hkept
  have hbefore : c.disk.contains file = true → c.disk.read file = .ok m.cartridge.ram :=
    hread (hheader ▸ hbattery)
  have hafter : after = (c.written?.map fun w => w.2.2).getD c.disk :=
    hdisk.trans (disk_retire c)
  refine ⟨?_, ?_, ?_, ?_⟩
  · intro ram hram
    exact Except.ok.inj ((hbefore (Disk.contains_of_read hram)).symm.trans hram)
  · intro hnone
    obtain ⟨-, header, -, rfl⟩ := Machine.build_eq_ok_iff.mp hbuild
    rw [hheader]
    exact hzero hnone
  · intro hcoherent g ram disk hwritten hsame
    have hfile : after.read file = .ok ram := by
      rw [hafter, hwritten]
      exact Disk.read_of_write_same (write_of_written hwritten) hsame
    exact Except.ok.inj (hfile.symm.trans (hcoherent (Disk.contains_of_read hfile)))
  · intro hsame hcontains
    rw [hafter] at hcontains ⊢
    cases hwritten : c.written? with
    | none =>
      rw [hwritten] at hcontains
      exact hbefore hcontains
    | some w =>
      obtain ⟨g, ram, disk⟩ := w
      have hwrite := write_of_written hwritten
      rw [hwritten] at hcontains
      by_cases hlocate : c.disk.locate g = c.disk.locate file
      · rw [← hsame g ram disk hwritten hlocate]
        exact Disk.read_of_write_same hwrite hlocate
      · obtain ⟨e, he⟩ := Disk.contains_eq_true_iff.mp hcontains
        have hbefore' := hbefore
          (Disk.contains_eq_true_iff.mpr ⟨e, (Disk.entry_of_write_ne hwrite hlocate).mp he⟩)
        refine Disk.read_eq_ok_iff.mpr ?_
        exact (Disk.entry_of_write_ne hwrite hlocate).mpr (Disk.read_eq_ok_iff.mp hbefore')

/-! ### The same cartridge again -/

/-- An image with a battery that keeps one bank of RAM, and without a controller. -/
def batteryImage : Array UInt8 :=
  (((Array.replicate 0x8000 0).setIfInBounds 0x147 0x09).setIfInBounds 0x149 0x02).setIfInBounds
    0x14D 0xDC

/-- The image is accepted, and has a battery and a bank of RAM. -/
lemma parse_batteryImage : ∃ header, Header.parse batteryImage = .ok header ∧
    header.kind = .none ∧ header.battery = true ∧ header.ramSize = 0x2000 := by
  obtain ⟨header, hparse, hkind, hbattery, -, hramBanks⟩ := Cartridge.parse_codedImage
    (show MapperKind.ofCode? 0x09 = some (.none, true) by decide)
    (show Header.ramBanks? 0x02 = some 1 by decide)
  refine ⟨header, hparse, hkind, hbattery, ?_⟩
  rw [Header.ramSize, hramBanks]
  rfl

/-- What a console writes to the RAM before the cartridge is inserted again. -/
def savedRam : Array UInt8 := (Array.replicate 0x2000 0).setIfInBounds 0 1

/-- There is something in the RAM. -/
lemma isEmpty_savedRam : savedRam.isEmpty = false := by
  simp [savedRam, Array.isEmpty]

/-- The byte that was written makes a difference. -/
lemma savedRam_ne : savedRam ≠ Array.replicate 0x2000 0 := by
  intro h
  have hbyte : savedRam.getD 0 0 = 1 := by
    rw [savedRam, Cartridge.getD_setIfInBounds _ (by simp), if_pos rfl]
  rw [h, Cartridge.getD_replicate] at hbyte
  cases hbyte

/-- A console in which a cartridge was inserted and its RAM was written. -/
def saving (image : Array UInt8) : Console Solitude :=
  (unused.load image none (some "f")).2.write 0xA000 1

/-- A console in which a cartridge was inserted, its RAM was written, and the same cartridge was
inserted again. -/
def reloaded (image : Array UInt8) : Except Error Unit × Console Solitude :=
  (saving image).load image none (some "f")

/-- No file has the name on an unused disk. -/
lemma contains_unused : unused.disk.contains "f" = false := rfl

/-- A write to the first RAM address of a new cartridge without a controller. -/
lemma writeRam_first {header : Header} (hkind : header.kind = .none)
    (hsize : header.ramSize = 0x2000) (image : Array UInt8) :
    Cartridge.writeRam ⟨header, image, Array.replicate header.ramSize 0, .fresh header⟩ 0xA000 1 =
      ⟨header, image, savedRam, .fresh header⟩ := by
  have hcontrols : (Mapper.fresh header).controls = .none := congrArg Controls.fresh hkind
  simp [Cartridge.writeRam, Cartridge.ramVisible, Mapper.ramEnabled, Mapper.writeRam,
    Mapper.ramOffset, Mapper.ramBank, hcontrols, hsize, ramBankSize, savedRam]

section

variable {image : Array UInt8} {header : Header} (hparse : Header.parse image = .ok header)
  (hkind : header.kind = .none) (hbattery : header.battery = true)
  (hsize : header.ramSize = 0x2000)

include hparse hkind hbattery hsize

/-- Before the cartridge is inserted again, its battery would keep the byte. -/
lemma machine_saving : (saving image).disk = unused.disk ∧ ∃ m,
    (saving image).machine = some m ∧ m.kept? = some ("f", savedRam) := by
  obtain ⟨-, hdisk, hmachine⟩ := load_of_absent
    (Machine.build_of_parse hparse unused.config) contains_unused
  obtain ⟨journal, hwrite⟩ := write_eq hmachine 0xA000 1
  refine ⟨?_, _, congrArg Console.machine hwrite, ?_⟩
  · rw [saving, hwrite]
    exact hdisk.trans (disk_retire _)
  · have hcartridge : ((Machine.switchedOn header image none unused.config).bus.write
        0xA000 1).cartridge = ⟨header, image, savedRam, .fresh header⟩ :=
      writeRam_first hkind hsize image
    simp only [Machine.kept?, Machine.cartridge, hcartridge, hbattery, isEmpty_savedRam]
    rfl

/-- The bytes of the old RAM are written to the file, on an empty disk. -/
lemma written_saving :
    (saving image).written? = some ("f", savedRam, unused.disk.put ["f"] (.file savedRam)) := by
  obtain ⟨hdisk, m, hmachine, hkept⟩ := machine_saving hparse hkind hbattery hsize
  have hwrite : unused.disk.write "f" savedRam =
      .ok (unused.disk.put ["f"] (.file savedRam)) := rfl
  simp only [written?, hmachine, hdisk, Option.bind_some, hkept, hwrite]
  rfl

/-- The cartridge can be inserted again, and its RAM is zero then. -/
lemma machine_reloaded : (reloaded image).1 = .ok () ∧ ∃ m,
    (reloaded image).2.machine = some m ∧ m.cartridge.header.battery = true ∧
    m.cartridge.ram = Array.replicate 0x2000 0 ∧
    (reloaded image).2.disk.read "f" = .ok savedRam := by
  obtain ⟨hdisk, -⟩ := machine_saving hparse hkind hbattery hsize
  have habsent : (saving image).disk.contains "f" = false := by
    rw [hdisk]
    exact contains_unused
  obtain ⟨hload, hdisk', hmachine⟩ := load_of_absent
    (Machine.build_of_parse hparse (saving image).config) habsent
  refine ⟨hload, _, hmachine, hbattery, congrArg (Array.replicate · 0) hsize, ?_⟩
  rw [reloaded, hdisk', disk_retire, written_saving hparse hkind hbattery hsize]
  rfl

end

/-- What `load_coherent_iff` says about a cartridge that is inserted again with the same file. -/
theorem load_coherent_iff_reloaded : ∃ m, (reloaded batteryImage).2.machine = some m ∧
    m.cartridge.header.battery = true ∧
    ¬ ((reloaded batteryImage).2.disk.contains "f" = true →
      (reloaded batteryImage).2.disk.read "f" = .ok m.cartridge.ram) := by
  obtain ⟨header, hparse, hkind, hbattery, hsize⟩ := parse_batteryImage
  obtain ⟨hload, m, hmachine, hbattery', hram, -⟩ :=
    machine_reloaded hparse hkind hbattery hsize
  unfold reloaded at hload hmachine ⊢
  obtain ⟨-, -, hcoherent⟩ := load_coherent_iff hload hmachine hbattery'
  refine ⟨m, hmachine, hbattery', fun h => savedRam_ne ?_⟩
  rw [← hram]
  exact hcoherent.mp h "f" savedRam _ (written_saving hparse hkind hbattery hsize) rfl

/-- A cartridge that is inserted again with the same file gets the RAM from before its last use: the
RAM that it had just before is written to the file after the file was looked at. -/
theorem reload_loses_ram : ∃ old m, (saving batteryImage).machine = some old ∧
    old.kept? = some ("f", savedRam) ∧ (reloaded batteryImage).1 = .ok () ∧
    (reloaded batteryImage).2.machine = some m ∧ m.cartridge.header.battery = true ∧
    m.cartridge.ram.isEmpty = false ∧ (reloaded batteryImage).2.disk.contains "f" = true ∧
    (reloaded batteryImage).2.disk.read "f" = .ok savedRam ∧ m.cartridge.ram ≠ savedRam := by
  obtain ⟨header, hparse, hkind, hbattery, hsize⟩ := parse_batteryImage
  obtain ⟨-, old, hold, hkept⟩ := machine_saving hparse hkind hbattery hsize
  obtain ⟨hload, m, hmachine, hbattery', hram, hread⟩ :=
    machine_reloaded hparse hkind hbattery hsize
  have hne : m.cartridge.ram ≠ savedRam := by
    rw [hram]
    exact savedRam_ne.symm
  refine ⟨old, m, hold, hkept, hload, hmachine, hbattery', ?_, Disk.contains_of_read hread, hread,
    hne⟩
  rw [hram]
  simp [Array.isEmpty]

end Console

end Handheld
