import Handheld.Console.Basic
import Handheld.Proofs.Agreement
import Handheld.Proofs.Saved.Machine

/-!
# Exporting and importing states

`Console.Used` describes the consoles that come from inserting a given cartridge with given settings
and using it in any way: by steps, by writes, by a debugger, by bringing back the RAM of the
battery.  In all of them there is a well-formed machine (`Console.Used.holds`).

The main statement is `Console.importState_exportState`: a state that is exported from any of these
consoles can be imported into any console with the same cartridge and the same settings, whatever
state this one is in (`Console.Carries`).  The machine there is then the exported one, up to the
file of its battery, and goes on in the same way if the surroundings give the same answers
(`Host.Agree`).
-/

namespace Handheld

namespace Console

variable {η θ : Type} [Host η] [Host θ]

/-- The consoles with a given cartridge, start-up program and settings, however they have been used
since the cartridge was inserted. -/
inductive Used (image : Array UInt8) (boot : Option (Array UInt8)) (config : Config) :
    Console η → Prop
  | load {c : Console η} (file : Option String) (hconfig : c.config = config)
      (hload : (c.load image boot file).1 = .ok ()) :
      Used image boot config (c.load image boot file).2
  | step {c : Console η} : Used image boot config c → Used image boot config c.stepOnce.2
  | write {c : Console η} (addr : UInt16) (v : UInt8) :
      Used image boot config c → Used image boot config (c.write addr v)
  | setRegister {c : Console η} (r : RegisterId) (v : UInt32) :
      Used image boot config c → Used image boot config (c.setRegister r v).2
  | debug {c : Console η} (r : Debug.Request) :
      Used image boot config c → Used image boot config (c.debug r).2
  | importBattery {c c' : Console η} (bytes : List UInt8) (h : c.importBattery bytes = .ok c') :
      Used image boot config c → Used image boot config c'
  /-- The surroundings, the disk and the journal change, and the machine does not. -/
  | outside {c : Console η} (host : η) (disk : Disk) (journal : Journal) :
      Used image boot config c →
        Used image boot config { c with host := host, disk := disk, journal := journal }

/-- The consoles with a given cartridge, start-up program and settings, in whatever state, also in
one that was imported. -/
structure Carries (image : Array UInt8) (boot : Option (Array UInt8)) (config : Config)
    (c : Console η) : Prop where
  config : c.config = config
  machine : ∃ m, c.machine = some m ∧ m.cartridge.rom = image ∧ m.bus.bootRom = boot

/-- A console with given settings and a well-formed machine, whose display has a given property. -/
structure Holds (P : Display → Prop) (config : Config) (m₀ : Machine) (c : Console η) : Prop where
  config : c.config = config
  machine : ∃ m, c.machine = some m ∧ m.WellFormed P m₀

namespace Holds

variable {P : Display → Prop} {config : Config} {m₀ : Machine} {c c' : Console η}

omit [Host η] in
/-- Only the settings and the machine matter. -/
lemma congr (hc : c.Holds P config m₀) (hconfig : c'.config = c.config)
    (hmachine : c'.machine = c.machine) : c'.Holds P config m₀ := by
  refine ⟨hconfig.trans hc.config, ?_⟩
  rw [hmachine]
  exact hc.machine

omit [Host η] in
/-- A console that is put together from the settings and a well-formed machine. -/
lemma of_machine {m : Machine} {host : η} {disk : Disk} {journal : Journal}
    (hm : m.WellFormed P m₀) :
    (⟨config, some m, host, disk, journal⟩ : Console η).Holds P config m₀ :=
  ⟨rfl, m, rfl, hm⟩

omit [Host η] in
/-- A console is put together from the settings and a well-formed machine. -/
lemma eq_mk (hc : c.Holds P config m₀) : ∃ m host disk journal,
    c = ⟨config, some m, host, disk, journal⟩ ∧ m.WellFormed P m₀ := by
  obtain ⟨config', machine, host, disk, journal⟩ := c
  obtain ⟨rfl, m, rfl, hm⟩ := hc
  exact ⟨m, host, disk, journal, rfl, hm⟩

/-- A step keeps a machine well-formed. -/
lemma step (hP : Display.Lasting P) (hc : c.Holds P config m₀) :
    c.stepOnce.2.Holds P config m₀ := by
  obtain ⟨m, host, disk, journal, rfl, hm⟩ := hc.eq_mk
  exact of_machine (hm.step hP host journal)

omit [Host η] in
/-- A write keeps a machine well-formed. -/
lemma write (hP : Display.Lasting P) (hc : c.Holds P config m₀) (addr : UInt16) (v : UInt8) :
    (c.write addr v).Holds P config m₀ := by
  obtain ⟨m, host, disk, journal, rfl, hm⟩ := hc.eq_mk
  exact of_machine (hm.write hP addr v)

omit [Host η] in
/-- Storing a value into a register keeps a machine well-formed. -/
lemma setRegister (hc : c.Holds P config m₀) (r : RegisterId) (v : UInt32) :
    (c.setRegister r v).2.Holds P config m₀ := by
  obtain ⟨m, host, disk, journal, rfl, hm⟩ := hc.eq_mk
  simp only [Console.setRegister, Option.bind_some]
  split
  · exact of_machine hm
  · rename_i m' hset
    exact of_machine (hm.setRegister hset)

omit [Host η] in
/-- Looking at an address leaves the machine as it is. -/
lemma read (hc : c.Holds P config m₀) (addr : UInt16) : (c.read addr).2.Holds P config m₀ := by
  unfold Console.read
  split
  · exact hc
  · exact hc.congr rfl rfl

omit [Host η] in
/-- A byte that arrives at the serial link keeps a machine well-formed. -/
lemma deliver (hc : c.Holds P config m₀) {v out : UInt8} (h : c.deliver v = some (out, c')) :
    c'.Holds P config m₀ := by
  obtain ⟨m, host, disk, journal, rfl, hm⟩ := hc.eq_mk
  cases hreceive : m.bus.serial.receive? v with
  | none => simp [Console.deliver, hreceive] at h
  | some p =>
    obtain ⟨out', serial⟩ := p
    simp only [Console.deliver, hreceive, bind, Option.bind_some, pure, Option.some.injEq,
      Prod.mk.injEq] at h
    obtain ⟨-, rfl⟩ := h
    exact of_machine (hm.receive hreceive _)

omit [Host η] in
/-- Bringing back the RAM of the battery keeps a machine well-formed. -/
lemma importBattery (hc : c.Holds P config m₀) {bytes : List UInt8}
    (h : c.importBattery bytes = .ok c') : c'.Holds P config m₀ := by
  obtain ⟨m, host, disk, journal, rfl, hm⟩ := hc.eq_mk
  simp only [Console.importBattery, requireMachine, bind, Except.bind] at h
  split at h
  · rename_i hsize
    obtain rfl := Except.ok.inj h
    exact of_machine (hm.withRam hsize)
  · cases h

/-- A request of a debugger keeps a machine well-formed, whether it is answered or refused. -/
lemma debug (hP : Display.Lasting P) (hc : c.Holds P config m₀) (r : Debug.Request) :
    (c.debug r).2.Holds P config m₀ := by
  unfold Console.debug
  split
  · exact hc
  split
  · exact hc
  · have hstep := hc.step hP
    split
    · rename_i h
      rw [h] at hstep
      exact hstep
    · rename_i h
      rw [h] at hstep
      exact hstep
  · unfold debugRead
    split
    · split
      · exact hc
      · exact hc
    · exact hc.read _
  · unfold debugWrite
    split
    · split
      · exact hc
      · rename_i reg _
        have hset := hc.setRegister reg r.data
        split
        · rename_i h
          rw [h] at hset
          exact hset
        · rename_i h
          rw [h] at hset
          exact hset
    · split
      · exact hc
      · exact hc.write hP _ _
  · unfold debugSerialIn
    split
    · exact hc
    split
    · rename_i h
      exact hc.deliver h
    · exact hc

end Holds

/-! ### Inserting a cartridge -/

/-- What the battery has kept replaces the RAM, and has its size. -/
lemma withKept_eq {m m' : Machine} {disk : Disk} {d : Option Diagnostic}
    (h : withKept m disk = .ok (m', d)) :
    ∃ ram, ram.size = m.cartridge.ram.size ∧ m' = m.withRam ram := by
  unfold withKept at h
  split at h
  · obtain ⟨rfl, -⟩ := Prod.mk.inj (Except.ok.inj h)
    exact ⟨_, rfl, rfl⟩
  split at h
  · split at h
    · cases h
    · simp only at h
      split at h
      · rename_i hsize
        obtain ⟨rfl, -⟩ := Prod.mk.inj (Except.ok.inj h)
        exact ⟨_, hsize, rfl⟩
      · cases h
  · obtain ⟨rfl, -⟩ := Prod.mk.inj (Except.ok.inj h)
    exact ⟨_, rfl, rfl⟩

omit [Host η] in
/-- Taking a cartridge out leaves the settings and the surroundings alone. -/
lemma outside_retire (c : Console η) : c.retire.config = c.config ∧ c.retire.host = c.host := by
  unfold retire
  split
  · exact ⟨rfl, rfl⟩
  split
  · exact ⟨rfl, rfl⟩
  · exact ⟨rfl, rfl⟩

omit [Host η] in
/-- A cartridge that has just been inserted is the one that was built from the image, perhaps with
other RAM of the same size. -/
lemma load_eq {c : Console η} {image : Array UInt8} {boot : Option (Array UInt8)}
    {file : Option String} (h : (c.load image boot file).1 = .ok ()) :
    ∃ m₀ ram, Machine.build image boot c.config = .ok m₀ ∧ ram.size = m₀.cartridge.ram.size ∧
      (c.load image boot file).2.machine =
        some (({ m₀ with batteryFile := file } : Machine).withRam ram) ∧
      (c.load image boot file).2.config = c.config ∧
      (c.load image boot file).2.host = c.host := by
  unfold Console.load at h ⊢
  cases hbuild : Machine.build image boot c.config with
  | error e => simp [hbuild] at h
  | ok m₀ =>
    simp only [hbuild] at h ⊢
    split at h
    · cases h
    · rename_i m d hkept
      obtain ⟨ram, hsize, rfl⟩ := withKept_eq hkept
      obtain ⟨hconfig, hhost⟩ := outside_retire { c.note (.cartridge m₀.cartridge.header) with
        journal := (c.note (.cartridge m₀.cartridge.header)).journal.note? d }
      exact ⟨m₀, ram, rfl, hsize, rfl, hconfig, hhost⟩

omit [Host η] in
/-- A cartridge that has just been inserted is well-formed, as soon as every machine is that has
just been built. -/
lemma Holds.load_of {P : Display → Prop} {c : Console η} {image : Array UInt8}
    {boot : Option (Array UInt8)} {file : Option String}
    (hP : ∀ m, Machine.build image boot c.config = .ok m → m.WellFormed P m)
    (h : (c.load image boot file).1 = .ok ()) :
    ∃ m₀, Machine.build image boot c.config = .ok m₀ ∧
      (c.load image boot file).2.Holds P c.config m₀ := by
  obtain ⟨m₀, ram, hbuild, hsize, hmachine, hconfig, -⟩ := load_eq h
  exact ⟨m₀, hbuild, hconfig, _, hmachine, ((hP m₀ hbuild).withFile file).withRam hsize⟩

omit [Host η] in
/-- A cartridge that has just been inserted is well-formed. -/
lemma Holds.load {config : Config} {c : Console η} {image : Array UInt8}
    {boot : Option (Array UInt8)} {file : Option String} (hconfig : c.config = config)
    (h : (c.load image boot file).1 = .ok ()) :
    ∃ m₀, Machine.build image boot config = .ok m₀ ∧
      (c.load image boot file).2.Holds Display.WellFormed config m₀ := by
  subst hconfig
  exact load_of (fun _ => Machine.wellFormed_build) h

/-! ### Use -/

/-- In a console in use there is a machine that was built from the image. -/
theorem Used.holds {image : Array UInt8} {boot : Option (Array UInt8)} {config : Config}
    {c : Console η} (hc : Used image boot config c) :
    ∃ m₀, Machine.build image boot config = .ok m₀ ∧
      c.Holds Display.WellFormed config m₀ := by
  have hP := Display.lasting_wellFormed
  induction hc with
  | load file hconfig hload => exact Holds.load hconfig hload
  | step _ ih => exact ih.imp fun _ h => ⟨h.1, h.2.step hP⟩
  | write addr v _ ih => exact ih.imp fun _ h => ⟨h.1, h.2.write hP addr v⟩
  | setRegister r v _ ih => exact ih.imp fun _ h => ⟨h.1, h.2.setRegister r v⟩
  | debug r _ ih => exact ih.imp fun _ h => ⟨h.1, h.2.debug hP r⟩
  | importBattery bytes himport _ ih => exact ih.imp fun _ h => ⟨h.1, h.2.importBattery himport⟩
  | outside host disk journal _ ih => exact ih.imp fun _ h => ⟨h.1, h.2.congr rfl rfl⟩

omit [Host η] in
/-- A well-formed machine has the cartridge and the start-up program of the one that was built. -/
lemma Holds.carries {P : Display → Prop} {image : Array UInt8} {boot : Option (Array UInt8)}
    {config : Config} {m₀ : Machine} {c : Console η}
    (hbuild : Machine.build image boot config = .ok m₀) (hc : c.Holds P config m₀) :
    c.Carries image boot config := by
  obtain ⟨hrom, hboot⟩ := Machine.source_build hbuild
  obtain ⟨hconfig, m, hm, hwell⟩ := hc
  exact ⟨hconfig, m, hm, hwell.bus.cartridge.rom.trans hrom, hwell.bus.bootRom.trans hboot⟩

/-! ### Going on -/

/-- The costs of the next steps and the machine after each of them, without the file of its
battery. -/
def future : Nat → Console η → List (Except Error UInt32 × Option Machine)
  | 0, _ => []
  | n + 1, c =>
    let (cost, c) := c.stepOnce
    (cost, c.machine.map ({ · with batteryFile := none })) :: future n c

/-- Machines with the same state have the same future, if their hosts agree. -/
lemma future_agree {R : η → θ → Prop} (hR : Host.Agree R) (n : Nat) {c : Console η}
    {d : Console θ} {m : Machine} {file : Option String} (hc : c.machine = some m)
    (hd : d.machine = some { m with batteryFile := file }) (hhost : R c.host d.host) :
    future n c = future n d := by
  induction n generalizing c d m with
  | zero => rfl
  | succ n ih =>
    obtain ⟨config, machine, host, disk, journal⟩ := c
    obtain ⟨config', machine', host', disk', journal'⟩ := d
    obtain rfl : machine = some m := hc
    obtain rfl : machine' = some { m with batteryFile := file } := hd
    obtain ⟨hcycles, hmachine, hhost'⟩ := Machine.step_agree hR hhost m file journal journal'
    have hstate : ({ (m.step host journal).machine with batteryFile := none } : Machine) =
        { (({ m with batteryFile := file } : Machine).step host' journal').machine with
          batteryFile := none } := by
      rw [hmachine]
    have hrest := ih (c := (stepOnce ⟨config, some m, host, disk, journal⟩).2)
      (d := (stepOnce ⟨config', some { m with batteryFile := file }, host', disk', journal'⟩).2)
      rfl (congrArg some hmachine) hhost'
    exact congrArg₂ List.cons
      (Prod.ext (congrArg Except.ok hcycles) (congrArg some hstate)) hrest

/-! ### Exporting and importing -/

/-- A state that was exported from a console can be imported into any console with the same
cartridge, start-up program and settings, which it keeps.  The machine there is then the exported
one, except that it keeps the file of its own battery; and if the hosts agree, it takes the same
steps at the same costs from then on. -/
theorem importState_exportState {image : Array UInt8} {boot : Option (Array UInt8)}
    {config : Config} {c : Console η} {d : Console θ} (hc : Used image boot config c)
    (hd : d.Carries image boot config) :
    ∃ m bytes file d', c.machine = some m ∧ c.exportState = .ok bytes ∧
      d.importState bytes = (.ok (), d') ∧ d'.Carries image boot config ∧
      d'.machine = some { m with batteryFile := file } ∧
      ∀ R : η → θ → Prop, Host.Agree R → R c.host d.host → ∀ n, future n c = future n d' := by
  obtain ⟨m₀, hbuild, hholds⟩ := hc.holds
  obtain ⟨-, m, hm, hwell⟩ := hholds
  obtain ⟨hconfig, k, hk, hrom, hboot⟩ := hd
  have hrebuild : Machine.build k.cartridge.rom k.bus.bootRom d.config = .ok m₀ := by
    rw [hrom, hboot, hconfig, hbuild]
  have hrestored := Machine.restored_save hwell (Machine.wellFormed_build hbuild)
  let d' : Console θ := { d with
    machine := some { m with batteryFile := k.batteryFile }
    journal := d.journal.note (.cartridge m₀.cartridge.header) }
  have hd' : d'.Carries image boot config :=
    Holds.carries hbuild ⟨hconfig, _, rfl, hwell.withFile k.batteryFile⟩
  refine ⟨m, m.save, k.batteryFile, d', hm, ?_, ?_, hd', rfl, ?_⟩
  · simp only [exportState, requireMachine, hm]
    rfl
  · simp only [importState, hk, Machine.stateBody_save, hrebuild, hrestored]
    rfl
  · intro R hR hhost n
    exact future_agree hR n hm rfl hhost

omit [Host η] in
/-- A write reaches the machine, and is perhaps noted. -/
lemma write_eq {c : Console η} {m : Machine} (h : c.machine = some m) (addr : UInt16)
    (v : UInt8) : ∃ journal, c.write addr v =
      { c with machine := some { m with bus := m.bus.write addr v }, journal := journal } := by
  obtain ⟨config, machine, host, disk, journal⟩ := c
  obtain rfl : machine = some m := h
  exact ⟨_, rfl⟩

/-- A console that nobody has used yet. -/
def unused : Console Solitude := { host := {} }

omit [Host η] in
/-- A cartridge without a file for its battery can be inserted if a machine can be built. -/
lemma load_of_build {c : Console η} {image : Array UInt8} {boot : Option (Array UInt8)}
    {m : Machine} (h : Machine.build image boot c.config = .ok m) :
    (c.load image boot).1 = .ok () ∧
      (c.load image boot).2.machine = some { m with batteryFile := none } := by
  unfold load
  simp only [h, withKept]
  exact ⟨trivial, trivial⟩

omit [Host η] in
/-- The small cartridge can be inserted into every console, and the machine is then just switched
on. -/
lemma load_plainImage (c : Console η) : (c.load Cartridge.plainImage).1 = .ok () ∧
    ∃ header, (c.load Cartridge.plainImage).2.machine =
      some (Machine.switchedOn header Cartridge.plainImage none c.config) := by
  obtain ⟨header, hheader⟩ := Cartridge.parse_plainImage
  obtain ⟨hload, hm⟩ := load_of_build (c := c) (Machine.build_of_parse hheader c.config)
  exact ⟨hload, header, hm⟩

/-- What `importState_exportState` says about a console with the small cartridge that has not taken
a step: it imports the state of one that has taken a step, and after that the state of one that has
taken two. -/
theorem importState_exportState_plainImage :
    let d := (unused.load Cartridge.plainImage).2
    let c := d.stepOnce.2
    ∃ m bytes file d', c.machine = some m ∧ c.exportState = .ok bytes ∧
      d.importState bytes = (.ok (), d') ∧ d'.machine = some { m with batteryFile := file } ∧
      (∀ n, future n c = future n d') ∧
      ∃ m₂ bytes₂ file₂ d₂, c.stepOnce.2.machine = some m₂ ∧ c.stepOnce.2.exportState = .ok bytes₂ ∧
        d'.importState bytes₂ = (.ok (), d₂) ∧ d₂.machine = some { m₂ with batteryFile := file₂ } := by
  intro d c
  have hd : Used Cartridge.plainImage none unused.config d := .load none rfl (load_plainImage unused).1
  have hc : Used Cartridge.plainImage none unused.config c := .step hd
  obtain ⟨m₀, hbuild, hholds⟩ := hd.holds
  have hhost : c.host = d.host := Subsingleton.elim _ _
  obtain ⟨m, bytes, file, d', hm, hbytes, himport, hcarries, hd', hfuture⟩ :=
    importState_exportState hc (Holds.carries hbuild hholds)
  obtain ⟨m₂, bytes₂, file₂, d₂, hm₂, hbytes₂, himport₂, -, hd₂, -⟩ :=
    importState_exportState (.step hc) hcarries
  exact ⟨m, bytes, file, d', hm, hbytes, himport, hd',
    hfuture Eq (Host.agree_eq Solitude) hhost, m₂, bytes₂, file₂, d₂, hm₂, hbytes₂, himport₂, hd₂⟩

end Console

end Handheld
