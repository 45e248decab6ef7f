import Handheld.Proofs.Calls
import Handheld.Proofs.Cartridge.Restored

/-!
# What the ROM addresses show

The ROM addresses show the image of the cartridge through two windows: the first bank always, and
behind it the bank that the controller has selected.  While the latch of the start-up program is on,
the start-up program covers the first bytes.  `Machine.ShowsRom` says this byte by byte, and with it
that no access misses the image or the start-up program.

The main statement is `Console.shows_rom`.  Whatever happens to a console with a cartridge, its ROM
addresses show what they should; and unless a saved state is imported, the latch is on afterwards
exactly if it was on before and no byte but zero was written to its address.
-/

namespace Handheld

/-- The address of the latch of the start-up program. -/
def bootLatchAddress : UInt16 := 0xFF50

/-- A write that takes the start-up program away. -/
def uncovers (w : UInt16 × UInt8) : Bool := w.1 == bootLatchAddress && w.2 != 0

/-- The latch answers at its address only. -/
lemma Location.ofAddress_eq_bootLatch_iff {addr : UInt16} :
    ofAddress addr = .bootLatch ↔ addr = bootLatchAddress := by
  constructor
  · intro h
    simp only [ofAddress, ofLastPage, ite_eq_iff, dite_eq_iff, reduceCtorEq, and_false,
      exists_false, false_or, or_false, and_true] at h
    obtain ⟨-, -, -, -, -, -, hpage, -, -, -, -, -, -, -, hlow⟩ := h
    have haddr := addr.toNat_lt
    rw [UInt16.toNat_toUInt8] at hlow
    rw [← UInt16.toNat_inj]
    exact (by omega : addr.toNat = 0xFF50)
  · rintro rfl
    rfl

/-! ### The latch -/

namespace Bus

/-- A write to the latch takes the start-up program away, and no other write has to do with it. -/
lemma bootActive_write (b : Bus) (addr : UInt16) (v : UInt8) :
    (b.write addr v).bootActive = (b.bootActive && !uncovers (addr, v)) := by
  have huncovers : uncovers (addr, v) =
      (decide (Location.ofAddress addr = .bootLatch) && v != 0) := by
    rw [uncovers, decide_eq_decide.mpr Location.ofAddress_eq_bootLatch_iff]
    rfl
  rw [huncovers, write]
  cases Location.ofAddress addr with
  | bootLatch =>
    by_cases hv : v = 0
    · simp [hv]
    · simp [hv]
  | videoRam i | spriteRam i =>
    dsimp only
    split
    · simp
    · simp
  | _ => simp

/-- A transfer into sprite memory has nothing to do with the latch. -/
lemma bootActive_transfer (n : Nat) (b : Bus) : (transfer n b).bootActive = b.bootActive := by
  obtain ⟨ram, dma, h⟩ := transfer_eq n b
  rw [h]

end Bus

namespace Machine

variable {η : Type} [Host η]

/-- The latch after a step: on if it was on and the step has not taken the start-up program away. -/
lemma bootActive_step (m : Machine) (host : η) (journal : Journal) :
    (m.step host journal).machine.bus.bootActive =
      (m.bus.bootActive && !(m.core journal).writes.any uncovers) := by
  -- The list of writes explains the latch at any time of the step.
  have hclosed : Memory.Closed fun l : Logged ReportingBus =>
      l.memory.bus.bootActive = (m.bus.bootActive && !l.writes.any uncovers) := by
    constructor
    · intro l addr h
      exact h
    · intro l addr v h
      have hwrite : (Memory.write l addr v).memory.bus.bootActive =
          (l.memory.bus.bootActive && !uncovers (addr, v)) := l.memory.bus.bootActive_write addr v
      rw [hwrite, h]
      simp [Memory.write, Bool.and_assoc]
    · intro l d h
      exact h
    · intro l x h
      exact h
  have hstart : (m.core journal).logged.memory.memory.bus.bootActive =
      (m.bus.bootActive && !(m.core journal).logged.memory.writes.any uncovers) := by
    simp [Core.logged, core]
  have hlogged := hclosed.step (hclosed.service hstart)
  obtain ⟨-, hbus, -⟩ := m.step_eq host journal
  have hadvance : ((m.executed journal).advance (m.core journal).macroCost host).bus.bootActive =
      (m.executed journal).bootActive := Bus.bootActive_transfer _ _
  rw [hbus, hadvance, executed, ← (Core.macroStep_logged (m.core journal)).2]
  exact hlogged

/-! ### The windows -/

/-- What a machine with a given image and start-up program shows at the ROM addresses: the start-up
program from the beginning while its latch is on, the first bank of the image, and behind it the
bank that the controller has selected. -/
structure ShowsRom (image : Array UInt8) (boot : Option (Array UInt8)) (m : Machine) : Prop where
  rom : m.cartridge.rom = image
  bootRom : m.bus.bootRom = boot
  covered : ∀ addr : UInt16, addr.toNat ≤ 0xFF → m.bus.bootActive = true →
    ∃ bytes, boot = some bytes ∧ bytes[addr.toNat]? = some (m.bus.read addr)
  fixed : ∀ addr : UInt16, addr.toNat < romBankSize →
    ¬ (addr.toNat ≤ 0xFF ∧ m.bus.bootActive = true) →
    image[addr.toNat]? = some (m.bus.read addr)
  switched : ∀ addr : UInt16, romBankSize ≤ addr.toNat → addr.toNat < 2 * romBankSize →
    image[m.cartridge.mapper.romBank * romBankSize + (addr.toNat - romBankSize)]? =
      some (m.bus.read addr)

variable {P : Display → Prop} {m m₀ : Machine} {image : Array UInt8} {boot : Option (Array UInt8)}
  {config : Config}

omit [Host η] in
/-- An access inside an array is answered by the array. -/
lemma getElem?_eq_some_getD {bytes : Array UInt8} {i : Nat} (h : i < bytes.size) (d : UInt8) :
    bytes[i]? = some (bytes.getD i d) := by
  simp [Array.getD, h]

/-- The selected bank is in the image. -/
lemma WellFormed.romBank_lt (hm : m.WellFormed P m₀)
    (himage : Header.parse image = .ok m₀.cartridge.header) :
    m.cartridge.mapper.romBank < m₀.cartridge.header.romBanks := by
  obtain ⟨n, -, hrom⟩ := hm.bus.cartridge.mapper.rom
  have hlt : n % m.bus.cartridge.mapper.banks.romCount < m₀.cartridge.header.romBanks := by
    rw [hm.bus.cartridge.mapper.romCount]
    exact Nat.mod_lt _ (Header.romBanks_pos himage)
  exact Nat.lt_of_le_of_lt (Nat.le_of_eq hrom) hlt

/-- The start-up program covers its own bytes only, and only while the latch is on. -/
lemma readRom_of_uncovered {b : Bus} {addr : UInt16}
    (h : ¬ (addr.toNat ≤ 0xFF ∧ b.bootActive = true)) :
    b.readRom addr = b.cartridge.readRom addr := by
  unfold Bus.readRom
  split
  · rw [if_neg]
    intro hcovered
    simp only [Bool.and_eq_true, decide_eq_true_eq, UInt16.lt_iff_toNat_lt,
      UInt16.reduceToNat] at hcovered
    exact h ⟨by omega, hcovered.1.1⟩
  · rfl

/-- The selected bank ends in the image. -/
lemma WellFormed.romBank_end_le (hm : m.WellFormed P m₀)
    (himage : Header.parse image = .ok m₀.cartridge.header) :
    m.cartridge.mapper.romBank * romBankSize + romBankSize ≤ image.size := by
  rw [(Header.describes_of_parse himage).romSize, ← Nat.succ_mul]
  exact Nat.mul_le_mul_right _ (hm.romBank_lt himage)

omit [Host η] in
/-- The ROM addresses are the first half of all. -/
lemma read_of_rom (b : Bus) {addr : UInt16} (haddr : addr.toNat < 2 * romBankSize) :
    b.read addr = b.readRom addr := by
  have hlocation : Location.ofAddress addr = .rom addr := if_pos haddr
  rw [Bus.read, hlocation]

omit [Host η] in
/-- While its latch is on, a start-up program of the right size shows its own bytes. -/
lemma readRom_of_covered {b : Bus} {bytes : Array UInt8} {addr : UInt16}
    (hbytes : b.bootRom = some bytes) (hsize : bytes.size = bootRomSize)
    (hactive : b.bootActive = true) (haddr : addr.toNat ≤ 0xFF) :
    bytes[addr.toNat]? = some (b.readRom addr) := by
  have hlt : addr < 0x100 := by
    rw [UInt16.lt_iff_toNat_lt]
    exact Nat.lt_succ_of_le haddr
  rw [Bus.readRom, hbytes]
  simp only [hactive, hlt, hsize, decide_true, beq_self_eq_true, Bool.and_self, if_true]
  exact getElem?_eq_some_getD (by rw [hsize, bootRomSize]; omega) 0xFF

/-- A machine in use shows what it was built with. -/
lemma WellFormed.showsRom (hbuild : build image boot config = .ok m₀) (hm : m.WellFormed P m₀) :
    m.ShowsRom image boot := by
  obtain ⟨hrom₀, hboot₀⟩ := source_build hbuild
  obtain ⟨hcheck, header, himage, hm₀⟩ := build_eq_ok_iff.mp hbuild
  have hrom : m.cartridge.rom = image := hm.bus.cartridge.rom.trans hrom₀
  have hboot : m.bus.bootRom = boot := hm.bus.bootRom.trans hboot₀
  have hheader : m₀.cartridge.header = header := by
    rw [hm₀]
    rfl
  have hend := hm.romBank_end_le (hheader ▸ himage)
  have hplace (addr : UInt16) (i : Nat) (hoffset : m.cartridge.mapper.romOffset addr = i)
      (hi : i < image.size) : image[i]? = some (m.bus.cartridge.readRom addr) := by
    rw [Cartridge.readRom, show m.bus.cartridge.mapper.romOffset addr = i from hoffset,
      show m.bus.cartridge.rom = image from hrom]
    exact getElem?_eq_some_getD hi 0xFF
  refine ⟨hrom, hboot, ?_, ?_, ?_⟩
  · intro addr haddr hactive
    obtain ⟨bytes, hbytes⟩ := Option.isSome_iff_exists.mp (hm.bus.bootActive hactive)
    have hbytes' : boot = some bytes := hboot.symm.trans hbytes
    have hsize : bytes.size = bootRomSize := by
      rw [hbytes', checkBoot] at hcheck
      split at hcheck
      · assumption
      · cases hcheck
    rw [read_of_rom _ (by rw [romBankSize]; omega)]
    exact ⟨bytes, hbytes', readRom_of_covered hbytes hsize hactive haddr⟩
  · intro addr haddr hcovered
    have hlt : addr < 0x4000 := UInt16.lt_iff_toNat_lt.mpr haddr
    rw [read_of_rom _ (by omega), readRom_of_uncovered hcovered]
    exact hplace addr addr.toNat (if_pos hlt) (by omega)
  · intro addr hfrom hto
    have hge : ¬ addr < 0x4000 := by
      rw [UInt16.lt_iff_toNat_lt]
      exact Nat.not_lt.mpr hfrom
    have hmod : addr.toNat % romBankSize = addr.toNat - romBankSize := by
      rw [Nat.mod_eq_sub_mod hfrom]
      exact Nat.mod_eq_of_lt (by omega)
    have huncovered : ¬ (addr.toNat ≤ 0xFF ∧ m.bus.bootActive = true) := by
      have hfirst : romBankSize = 0x4000 := rfl
      omega
    rw [read_of_rom _ hto, readRom_of_uncovered huncovered]
    refine hplace addr _ ?_ (by omega)
    rw [Mapper.romOffset, if_neg hge, hmod]

end Machine

/-! ### Consoles -/

namespace Console

/-- The console has a machine with a given state of the latch. -/
def Latched {η : Type} (active : Bool) (c : Console η) : Prop :=
  ∃ m, c.machine = some m ∧ m.bus.bootActive = active

variable {η : Type} [Host η] {c : Console η} {m : Machine}

/-- What the macro-step of a console writes. -/
def stepWrites (c : Console η) : List (UInt16 × UInt8) :=
  match c.machine with
  | none => []
  | some m => (m.core c.journal).writes

/-- A macro-step changes the latch by its writes. -/
lemma latched_step (hm : c.machine = some m) :
    c.stepOnce.2.Latched (m.bus.bootActive && !c.stepWrites.any uncovers) := by
  refine ⟨_, machine_stepOnce hm, ?_⟩
  rw [stepWrites, hm]
  exact m.bootActive_step c.host c.journal

omit [Host η] in
/-- A write changes the latch if it is for the latch. -/
lemma latched_write (hm : c.machine = some m) (addr : UInt16) (v : UInt8) :
    (c.write addr v).Latched (m.bus.bootActive && !uncovers (addr, v)) := by
  obtain ⟨journal, hwrite⟩ := write_eq hm addr v
  rw [hwrite]
  exact ⟨_, rfl, m.bus.bootActive_write addr v⟩

omit [Host η] in
/-- Storing a value into a register keeps the latch. -/
lemma latched_setRegister (hm : c.machine = some m) (r : RegisterId) (v : UInt32) :
    (c.setRegister r v).2.Latched m.bus.bootActive := by
  unfold setRegister
  rw [hm]
  simp only [Option.bind_some]
  split
  · exact ⟨m, hm, rfl⟩
  · rename_i m' hset
    rcases Machine.setRegister_cases hset with ⟨cpu, -, rfl⟩ | rfl | rfl
    · exact ⟨_, rfl, rfl⟩
    · exact ⟨_, rfl, rfl⟩
    · exact ⟨_, rfl, rfl⟩

omit [Host η] in
/-- A byte that arrives at the serial link keeps the latch. -/
lemma latched_deliver {c' : Console η} {v out : UInt8} (hm : c.machine = some m)
    (h : c.deliver v = some (out, c')) : c'.Latched m.bus.bootActive := by
  simp only [deliver, hm, bind, Option.bind_some, pure, Option.bind_eq_some_iff,
    Option.some.injEq, Prod.mk.injEq] at h
  obtain ⟨⟨out', serial⟩, -, -, rfl⟩ := h
  exact ⟨_, rfl, rfl⟩

omit [Host η] in
/-- Bringing back the RAM of the battery keeps the latch. -/
lemma latched_importBattery {c' : Console η} {bytes : List UInt8} (hm : c.machine = some m)
    (h : c.importBattery bytes = .ok c') : c'.Latched m.bus.bootActive := by
  simp only [importBattery, requireMachine, hm, bind, Except.bind] at h
  split at h
  · obtain rfl := Except.ok.inj h
    exact ⟨_, rfl, rfl⟩
  · cases h

omit [Host η] in
/-- What leaves the latch alone writes nothing to it. -/
lemma Latched.of_eq (hc : c.Latched m.bus.bootActive) :
    c.Latched (m.bus.bootActive && !([] : List (UInt16 × UInt8)).any uncovers) := by
  rwa [List.any_nil, Bool.not_false, Bool.and_true]

/-- What a request of a debugger writes to the bus. -/
def debugWrites (c : Console η) (r : Debug.Request) : List (UInt16 × UInt8) :=
  match r.action with
  | .cycle => c.stepWrites
  | .write =>
    if r.registerIndex? = none ∧ r.data ≤ 0xFF then [(r.address.toUInt16, r.data.toUInt8)] else []
  | .nop | .read | .serialIn => []

omit [Host η] in
/-- A read of a debugger keeps the latch. -/
lemma latched_debugRead (hm : c.machine = some m) (r : Debug.Request) :
    (c.debugRead r).2.Latched m.bus.bootActive := by
  have hc : c.Latched m.bus.bootActive := ⟨m, hm, rfl⟩
  simp only [debugRead]
  split
  · split
    · exact hc
    · exact hc
  · rw [read, hm]
    exact ⟨m, rfl, rfl⟩

omit [Host η] in
/-- A write of a debugger goes to a register, to the bus, or nowhere. -/
lemma latched_debugWrite (hm : c.machine = some m) (r : Debug.Request) :
    (c.debugWrite r).2.Latched (m.bus.bootActive && !(if r.registerIndex? = none ∧ r.data ≤ 0xFF
      then [(r.address.toUInt16, r.data.toUInt8)] else []).any uncovers) := by
  have hc : c.Latched m.bus.bootActive := ⟨m, hm, rfl⟩
  simp only [debugWrite]
  cases r.registerIndex? with
  | some i =>
    rw [if_neg (by simp)]
    apply Latched.of_eq
    dsimp only
    split
    · exact hc
    · rename_i reg _
      have hset := latched_setRegister hm reg r.data
      split
      · rename_i h
        rwa [h] at hset
      · rename_i h
        rwa [h] at hset
  | none =>
    by_cases hdata : r.data ≤ 0xFF
    · rw [if_pos ⟨rfl, hdata⟩]
      dsimp only
      rw [if_neg (UInt32.not_lt.mpr hdata), List.any_cons, List.any_nil, Bool.or_false]
      exact latched_write hm _ _
    · rw [if_neg fun h => hdata h.2]
      dsimp only
      rw [if_pos (UInt32.not_le.mp hdata)]
      exact hc.of_eq

/-- A request of a debugger changes the latch by its writes. -/
lemma latched_debug (hm : c.machine = some m) (r : Debug.Request) :
    (c.debug r).2.Latched (m.bus.bootActive && !(c.debugWrites r).any uncovers) := by
  have hc : c.Latched m.bus.bootActive := ⟨m, hm, rfl⟩
  have hloaded : ¬ (!c.isLoaded) = true := by simp [isLoaded, hm]
  rw [debug, if_neg hloaded, debugWrites]
  cases r.action with
  | nop => exact hc.of_eq
  | cycle =>
    have hstep := latched_step hm
    dsimp only
    split
    · rename_i h
      rwa [h] at hstep
    · rename_i h
      rwa [h] at hstep
  | read => exact (latched_debugRead hm r).of_eq
  | write => exact latched_debugWrite hm r
  | serialIn =>
    apply Latched.of_eq
    simp only [debugSerialIn]
    split
    · exact hc
    split
    · rename_i h
      exact latched_deliver hm h
    · exact hc

/-- What can happen to a console with a cartridge. -/
inductive Action (η : Type)
  | step
  | write (addr : UInt16) (v : UInt8)
  | setRegister (r : RegisterId) (v : UInt32)
  | debug (r : Debug.Request)
  | importBattery (bytes : List UInt8)
  | importState (bytes : List UInt8)
  /-- The surroundings, the disk and the journal change. -/
  | outside (host : η) (disk : Disk) (journal : Journal)

namespace Action

/-- The console after an action.  What is refused changes nothing but the journal. -/
def apply (c : Console η) : Action η → Console η
  | step => c.stepOnce.2
  | write addr v => c.write addr v
  | setRegister r v => (c.setRegister r v).2
  | debug r => (c.debug r).2
  | importBattery bytes => (c.importBattery bytes).toOption.getD c
  | importState bytes => (c.importState bytes).2
  | outside host disk journal => { c with host := host, disk := disk, journal := journal }

/-- What an action writes to the bus. -/
def writes (c : Console η) : Action η → List (UInt16 × UInt8)
  | step => c.stepWrites
  | write addr v => [(addr, v)]
  | debug r => c.debugWrites r
  | setRegister _ _ | importBattery _ | importState _ | outside _ _ _ => []

/-- Whether an action imports a saved state. -/
def imports : Action η → Bool
  | importState _ => true
  | _ => false

variable {config : Config} {m₀ : Machine}

/-- No action changes what the machine was built from. -/
lemma holds {image : Array UInt8} {boot : Option (Array UInt8)}
    (hbuild : Machine.build image boot config = .ok m₀) (hc : c.Holds (fun _ => True) config m₀)
    (a : Action η) : (a.apply c).Holds (fun _ => True) config m₀ := by
  have hP := Display.lasting_true
  cases a with
  | step => exact hc.step hP
  | write addr v => exact hc.write hP addr v
  | setRegister r v => exact hc.setRegister r v
  | debug r => exact hc.debug hP r
  | importBattery bytes =>
    change ((c.importBattery bytes).toOption.getD c).Holds _ _ _
    cases himport : c.importBattery bytes with
    | error e => exact hc
    | ok c' => exact hc.importBattery himport
  | importState bytes => exact hc.importState hbuild (fun _ _ => trivial) bytes
  | outside host disk journal => exact hc.congr rfl rfl

/-- No list of actions changes what the machine was built from. -/
lemma holds_foldl {image : Array UInt8} {boot : Option (Array UInt8)}
    (hbuild : Machine.build image boot config = .ok m₀) (hc : c.Holds (fun _ => True) config m₀)
    (actions : List (Action η)) : (actions.foldl apply c).Holds (fun _ => True) config m₀ := by
  induction actions generalizing c with
  | nil => exact hc
  | cons a actions ih => exact ih (a.holds hbuild hc)

/-- The latch after an action that imports nothing: on if it was on and the action has not taken the
start-up program away. -/
lemma latched_apply (hm : c.machine = some m) (a : Action η) (ha : a.imports = false) :
    (a.apply c).Latched (m.bus.bootActive && !(a.writes c).any uncovers) := by
  cases a with
  | step => exact latched_step hm
  | write addr v => simpa [apply, writes] using latched_write hm addr v
  | setRegister r v => exact (latched_setRegister hm r v).of_eq
  | debug r => exact latched_debug hm r
  | importBattery bytes =>
    apply Latched.of_eq
    change ((c.importBattery bytes).toOption.getD c).Latched _
    cases himport : c.importBattery bytes with
    | error e => exact ⟨m, hm, rfl⟩
    | ok c' => exact latched_importBattery hm himport
  | importState bytes => cases ha
  | outside host disk journal => exact Latched.of_eq ⟨m, hm, rfl⟩

end Action

variable {η : Type} [Host η] {c : Console η}

/-- From the moment at which a cartridge is inserted, whatever happens to the console, its ROM
addresses show the image and the start-up program that it was given, and the latch says which.  The
latch is on after another action exactly if it was on and the action did not write to it, unless the
action imports a saved state. -/
theorem shows_rom {image : Array UInt8} {boot : Option (Array UInt8)} {file : Option String}
    (hload : (c.load image boot file).1 = .ok ()) (actions : List (Action η)) :
    let d := actions.foldl Action.apply (c.load image boot file).2
    ∃ m, d.machine = some m ∧ m.ShowsRom image boot ∧
      ∀ a : Action η, a.imports = false →
        ∃ m', (a.apply d).machine = some m' ∧
          m'.bus.bootActive = (m.bus.bootActive && !(a.writes d).any uncovers) := by
  intro d
  obtain ⟨m₀, hbuild, hholds⟩ := Holds.load rfl hload
  have hd : d.Holds (fun _ => True) c.config m₀ :=
    Action.holds_foldl hbuild (hholds.mono fun _ _ => trivial) actions
  obtain ⟨m, hm, hwell⟩ := hd.machine
  exact ⟨m, hm, hwell.showsRom hbuild, fun a ha => Action.latched_apply hm a ha⟩

/-- A start-up program of zeros. -/
def plainBoot : Array UInt8 := Array.replicate bootRomSize 0

/-- A console with the small cartridge and a start-up program shows both, and a write to the latch
takes the start-up program away. -/
theorem shows_rom_plainImage :
    let c := (unused.load Cartridge.plainImage (some plainBoot)).2
    ∃ m m', c.machine = some m ∧ m.ShowsRom Cartridge.plainImage (some plainBoot) ∧
      ((Action.write bootLatchAddress 1).apply c).machine = some m' ∧
      m'.bus.bootActive = false := by
  intro c
  obtain ⟨header, hheader⟩ := Cartridge.parse_plainImage
  have hsize : plainBoot.size = bootRomSize := by rw [plainBoot, Array.size_replicate]
  have hcheck : Machine.checkBoot (some plainBoot) = .ok () := by
    rw [Machine.checkBoot, if_pos hsize]
  have hbuild : Machine.build Cartridge.plainImage (some plainBoot) unused.config =
      .ok (Machine.switchedOn header Cartridge.plainImage (some plainBoot) unused.config) :=
    Machine.build_eq_ok_iff.mpr ⟨hcheck, header, hheader, rfl⟩
  have hload : (unused.load Cartridge.plainImage (some plainBoot)).1 = .ok () :=
    (load_of_build (c := unused) hbuild).1
  have hsame : [].foldl Action.apply c = c := List.foldl_nil
  obtain ⟨m, hm, hshows, hlatch⟩ := shows_rom hload []
  rw [hsame] at hm hlatch
  obtain ⟨m', hm', hactive⟩ := hlatch (.write bootLatchAddress 1) rfl
  exact ⟨m, m', hm, hshows, hm', hactive.trans (Bool.and_false _)⟩

end Console

end Handheld
