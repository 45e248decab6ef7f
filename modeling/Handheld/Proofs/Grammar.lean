import Handheld.Proofs.Saved.Accepted
import Handheld.Proofs.Saved.Console

/-!
# The format of saved states

`SavedState` says which streams of bytes are saved states for a cartridge: they begin with the right
bytes, they have the right length, and a few fields at fixed places are in their ranges.  All other
bytes may be anything.  The length depends on the cartridge only, by its controller and the size of
its RAM.

`Console.Loaded` describes the consoles with a cartridge, whatever has happened to them since it was
inserted, states that were imported included.  The main statement is
`Console.importState_grammar`: such a console accepts the saved states for its cartridge, and
nothing else; in particular, nothing can be left out at the end of a saved state and nothing can be
added.
-/

namespace Handheld

/-- The display has four modes. -/
lemma Mode.exists_ofCode?_iff {v : UInt8} : (∃ mode, ofCode? v = some mode) ↔ v ≤ 3 := by
  rw [UInt8.le_iff_toNat_le]
  change _ ↔ v.toNat ≤ 3
  unfold ofCode?
  split
  case h_5 h₀ h₁ h₂ h₃ =>
    refine ⟨nofun, fun hle => ?_⟩
    obtain h | h | h | h : v.toNat = 0 ∨ v.toNat = 1 ∨ v.toNat = 2 ∨ v.toNat = 3 := by omega
    · exact absurd h h₀
    · exact absurd h h₁
    · exact absurd h h₂
    · exact absurd h h₃
  all_goals exact ⟨fun _ => by omega, fun _ => ⟨_, rfl⟩⟩

/-- A saved state for a cartridge with a given controller and so many bytes of RAM. -/
structure SavedState (kind : MapperKind) (ramSize : Nat) (bytes : List UInt8) : Prop where
  magic : bytes.take 4 = Machine.stateMagic
  version : byteAt bytes 4 = Machine.stateVersion
  length : bytes.length = 39841 + kind.width + ramSize
  /-- The frame sequencer is not past the end of its period. -/
  sequencerPhase : wordAt bytes 13 < 8192
  /-- The serial link is not past the end of a bit. -/
  serialPhase : wordAt bytes 73 < 512
  /-- The timer is not past the end of the period that its control register asks for. -/
  timerPhase : wordAt bytes 82 < ({ tac := byteAt bytes 88 } : Timer).period.toNat
  /-- The interrupt master enable flag has three stages. -/
  imeTransition : byteAt bytes 102 ≤ 2
  displayMode : byteAt bytes 111 ≤ 3
  displayLine : byteAt bytes 112 ≤ 153
  /-- The display is not past the end of its mode. -/
  displayDots : ∀ mode, Mode.ofCode? (byteAt bytes 111) = some mode →
    wordAt bytes 107 < mode.duration.toNat
  dmaIndex : byteAt bytes 128 ≤ 160
  /-- A transfer that is over is not under way. -/
  dmaActive : ¬ (byteAt bytes 127 ≠ 0 ∧ byteAt bytes 128 = 160)

namespace Machine

variable {P : Display → Prop} {m₀ m : Machine} {bytes body : List UInt8}

/-- The first bytes are there and are as they should be. -/
lemma stateBody_eq_ok_iff : stateBody bytes = .ok body ↔
    bytes.take 4 = stateMagic ∧ 5 ≤ bytes.length ∧ byteAt bytes 4 = stateVersion ∧
      body = bytes.drop 5 := by
  have hmagic : stateMagic.length = 4 := rfl
  have hbody : bytes.drop 5 = (bytes.drop 4).drop 1 := by rw [List.drop_drop]
  have hversion : byteAt bytes 4 = byteAt (bytes.drop 4) 0 := by rw [byteAt_drop]
  have hlength : 5 ≤ bytes.length ↔ 1 ≤ (bytes.drop 4).length := by
    rw [List.length_drop]
    omega
  unfold stateBody
  rw [hmagic, hbody, hversion, hlength]
  cases bytes.drop 4 with
  | nil => simp
  | cons v rest =>
    simp only [byteAt, List.getD_cons_zero, List.drop_one, List.tail_cons]
    by_cases htake : bytes.take 4 = stateMagic
    · by_cases hv : v = stateVersion
      · simp [htake, hv, eq_comm]
      · simp [htake, hv]
    · simp [htake]

/-- A machine is restored exactly from a stream that its record loads completely. -/
lemma restored_eq_ok_iff :
    restored m₀ body = .ok m ↔ (record m₀.cartridge).Loads body m₀ m [] := by
  unfold restored Record.Loads
  rcases (record m₀.cartridge).load body m₀ with ⟨t, fault | rest⟩
  · simp
  · cases rest with
    | nil => simp
    | cons b rest => simp

/-- A machine that was restored is well-formed, except that its display may be one that does not
stay acceptable. -/
lemma wellFormed_restored (hm₀ : m₀.WellFormed P m₀) (h : restored m₀ body = .ok m)
    (hP : ∀ d, P d → Display.Acceptable d) : m.WellFormed Display.Acceptable m₀ :=
  ((reads_record hm₀).of_loads (hm₀.mono hP) (restored_eq_ok_iff.mp h)).1

/-- The streams that a machine is restored from are the saved states for its cartridge. -/
lemma savedState_iff (hm₀ : m₀.WellFormed Display.WellFormed m₀) :
    (∃ body, stateBody bytes = .ok body ∧ ∃ m, restored m₀ body = .ok m) ↔
      SavedState m₀.cartridge.header.kind m₀.cartridge.ram.size bytes := by
  have hacceptable := hm₀.mono fun _ hd => hd.toAcceptable
  have hall := (reads_record hm₀).loads_all_iff hacceptable (bytes.drop 5)
  have hrange : (∃ mode, Mode.ofCode? (byteAt bytes 111) = some mode ∧
        wordAt bytes 107 < mode.duration.toNat) ↔
      byteAt bytes 111 ≤ 3 ∧ ∀ mode, Mode.ofCode? (byteAt bytes 111) = some mode →
        wordAt bytes 107 < mode.duration.toNat := by
    rw [← Mode.exists_ofCode?_iff]
    constructor
    · rintro ⟨mode, hmode, hdots⟩
      refine ⟨⟨mode, hmode⟩, fun mode' hmode' => ?_⟩
      rw [hmode] at hmode'
      obtain rfl := Option.some.inj hmode'
      exact hdots
    · rintro ⟨⟨mode, hmode⟩, hdots⟩
      exact ⟨mode, hmode, hdots mode hmode⟩
  simp only [byteAt_drop, wordAt_drop, Nat.reduceAdd, List.length_drop, hrange] at hall
  simp only [stateBody_eq_ok_iff, restored_eq_ok_iff]
  constructor
  · rintro ⟨_, ⟨hmagic, hlength, hversion, rfl⟩, hload⟩
    obtain ⟨hsize, hsequencer, hserial, htimer, hime, hline, ⟨hmode, hdots⟩, hindex, hactive⟩ :=
      hall.mp hload
    exact ⟨hmagic, hversion, by omega, hsequencer, hserial, htimer, hime, hmode, hline, hdots,
      hindex, hactive⟩
  · intro h
    have hsize := h.length
    refine ⟨_, ⟨h.magic, by omega, h.version, rfl⟩, hall.mpr ⟨by omega, ?_⟩⟩
    exact ⟨h.sequencerPhase, h.serialPhase, h.timerPhase, h.imeTransition, h.displayLine,
      ⟨h.displayMode, h.displayDots⟩, h.dmaIndex, h.dmaActive⟩

end Machine

namespace Console

variable {η : Type} {c : Console η} {P : Display → Prop} {config : Config} {m₀ : Machine}

/-- A state is imported if a machine with the same cartridge is restored from it, and otherwise the
machine stays as it was. -/
lemma importState_cases {m : Machine} (hm : c.machine = some m)
    (hbuild : Machine.build m.cartridge.rom m.bus.bootRom c.config = .ok m₀) (bytes : List UInt8) :
    (∃ body m' journal, Machine.stateBody bytes = .ok body ∧ Machine.restored m₀ body = .ok m' ∧
      c.importState bytes = (.ok (), { c with
        machine := some { m' with batteryFile := m.batteryFile }, journal := journal })) ∨
    (¬ ∃ body, Machine.stateBody bytes = .ok body ∧ ∃ m', Machine.restored m₀ body = .ok m') ∧
      ∃ e journal, c.importState bytes = (.error e, { c with journal := journal }) := by
  obtain ⟨config, machine, host, disk, journal⟩ := c
  obtain rfl : machine = some m := hm
  have hbuild' : Machine.build m.cartridge.rom m.bus.bootRom config = .ok m₀ := hbuild
  cases hbody : Machine.stateBody bytes with
  | error fault =>
    refine .inr ⟨by simp, .badSnapshot fault, journal, ?_⟩
    simp only [importState, hbody]
  | ok body =>
    cases hrestored : Machine.restored m₀ body with
    | error fault =>
      refine .inr ⟨by simp [hrestored], .badSnapshot fault,
        journal.note (.cartridge m₀.cartridge.header), ?_⟩
      simp only [importState, hbody, hbuild', hrestored]
      rfl
    | ok m' =>
      refine .inl ⟨body, m', journal.note (.cartridge m₀.cartridge.header), rfl, hrestored, ?_⟩
      simp only [importState, hbody, hbuild', hrestored]
      rfl

/-- The state of a machine with an acceptable display is imported. -/
lemma importState_of_acceptable {m s : Machine} (hm : c.machine = some m)
    (hbuild : Machine.build m.cartridge.rom m.bus.bootRom c.config = .ok m₀)
    (hs : s.WellFormed Display.Acceptable m₀) : ∃ journal,
    c.importState s.save = (.ok (), { c with
      machine := some { s with batteryFile := m.batteryFile }, journal := journal }) := by
  have hrestored := Machine.restored_save_of_acceptable hs (Machine.wellFormed_build hbuild)
  refine ⟨c.journal.note (.cartridge m₀.cartridge.header), ?_⟩
  simp only [importState, hm, Machine.stateBody_save, hbuild, hrestored]
  rfl

/-- The state of a machine whose display is behind the last line is refused. -/
lemma importState_of_lastLine_lt {m s : Machine} (hm : c.machine = some m)
    (hbuild : Machine.build m.cartridge.rom m.bus.bootRom c.config = .ok m₀)
    (hs : s.WellFormed P m₀) (hline : Display.lastLine < s.bus.display.line) :
    (c.importState s.save).1 = .error (.badSnapshot (.component .displayLine)) := by
  have hrestored := Machine.restored_save_of_lastLine_lt hs (Machine.wellFormed_build hbuild) hline
  simp only [importState, hm, Machine.stateBody_save, hbuild, hrestored]

/-! ### Consoles with a cartridge -/

/-- The consoles with a cartridge, however they have been used since it was inserted. -/
inductive Loaded [Host η] : Console η → Prop
  | load {c : Console η} (image : Array UInt8) (boot : Option (Array UInt8)) (file : Option String)
      (h : (c.load image boot file).1 = .ok ()) : Loaded (c.load image boot file).2
  /-- Another cartridge is refused. -/
  | refuse {c : Console η} (image : Array UInt8) (boot : Option (Array UInt8))
      (file : Option String) (h : (c.load image boot file).1 ≠ .ok ()) :
      Loaded c → Loaded (c.load image boot file).2
  | step {c : Console η} : Loaded c → Loaded c.stepOnce.2
  | run {c : Console η} (limit : Nat) (breakpoints : List UInt16) :
      Loaded c → Loaded (c.run limit breakpoints).2
  | write {c : Console η} (addr : UInt16) (v : UInt8) : Loaded c → Loaded (c.write addr v)
  | setRegister {c : Console η} (r : RegisterId) (v : UInt32) :
      Loaded c → Loaded (c.setRegister r v).2
  | debug {c : Console η} (r : Debug.Request) : Loaded c → Loaded (c.debug r).2
  | importBattery {c c' : Console η} (bytes : List UInt8) (h : c.importBattery bytes = .ok c') :
      Loaded c → Loaded c'
  | importState {c : Console η} (bytes : List UInt8) : Loaded c → Loaded (c.importState bytes).2
  /-- The surroundings, the disk and the journal change, and the machine does not. -/
  | outside {c : Console η} (host : η) (disk : Disk) (journal : Journal) :
      Loaded c → Loaded { c with host := host, disk := disk, journal := journal }

namespace Holds

/-- A weaker property of the display. -/
lemma mono {Q : Display → Prop} (hc : c.Holds P config m₀) (h : ∀ d, P d → Q d) :
    c.Holds Q config m₀ := by
  obtain ⟨hconfig, m, hm, hwell⟩ := hc
  exact ⟨hconfig, m, hm, hwell.mono h⟩

/-- The display has the property. -/
lemma display {m : Machine} (hc : c.Holds P config m₀) (hm : c.machine = some m) :
    P m.bus.display := by
  obtain ⟨-, m', hm', hwell⟩ := hc
  obtain rfl : m' = m := Option.some.inj (hm'.symm.trans hm)
  exact hwell.bus.display

/-- A cartridge that is refused leaves the machine as it was. -/
lemma refuse (hc : c.Holds P config m₀) {image : Array UInt8} {boot : Option (Array UInt8)}
    {file : Option String} (h : (c.load image boot file).1 ≠ .ok ()) :
    (c.load image boot file).2.Holds P config m₀ := by
  unfold Console.load at h ⊢
  cases hbuild : Machine.build image boot c.config with
  | error e => exact hc
  | ok m =>
    simp only [hbuild] at h ⊢
    split at h
    · exact hc.congr rfl rfl
    · exact absurd rfl h

/-- A run keeps a machine well-formed. -/
lemma runSteps [Host η] (hP : Display.Lasting P) {m : Machine} (hm : m.WellFormed P m₀)
    (breakpoints : List UInt16) (n : Nat) (host : η) (journal : Journal) :
    (runSteps breakpoints n m host journal).machine.WellFormed P m₀ := by
  induction n generalizing m host journal with
  | zero => exact hm
  | succ n ih =>
    unfold Console.runSteps
    split
    · exact hm
    · rename_i host' _
      split
      · exact hm
      · exact ih (hm.step hP host' journal) _ _

/-- A console after a run. -/
lemma run [Host η] (hP : Display.Lasting P) (hc : c.Holds P config m₀) (limit : Nat)
    (breakpoints : List UInt16) : (c.run limit breakpoints).2.Holds P config m₀ := by
  obtain ⟨m, host, disk, journal, rfl, hm⟩ := hc.eq_mk
  exact of_machine (runSteps hP hm breakpoints limit host journal)

/-- The machine of a console in use can be built again from its own cartridge. -/
lemma rebuild {image : Array UInt8} {boot : Option (Array UInt8)} {m : Machine}
    (hbuild : Machine.build image boot config = .ok m₀) (hc : c.Holds P config m₀)
    (hm : c.machine = some m) :
    Machine.build m.cartridge.rom m.bus.bootRom c.config = .ok m₀ := by
  obtain ⟨hconfig, m', hm', hwell⟩ := hc
  obtain rfl : m' = m := Option.some.inj (hm'.symm.trans hm)
  obtain ⟨hrom, hbootRom⟩ := Machine.source_build hbuild
  have hrom' : m'.cartridge.rom = image := hwell.bus.cartridge.rom.trans hrom
  have hbootRom' : m'.bus.bootRom = boot := hwell.bus.bootRom.trans hbootRom
  rw [hrom', hbootRom', hconfig, hbuild]

/-- The state of a console's own machine is accepted, unless the display is behind the last line. -/
lemma importState_save {image : Array UInt8} {boot : Option (Array UInt8)} {m : Machine}
    {last : UInt8} (hbuild : Machine.build image boot config = .ok m₀)
    (hc : c.Holds (Display.Within last) config m₀) (hm : c.machine = some m) :
    (c.importState m.save).1 =
      if m.bus.display.line ≤ Display.lastLine then .ok ()
      else .error (.badSnapshot (.component .displayLine)) := by
  have hrebuild := rebuild hbuild hc hm
  obtain ⟨-, m', hm', hwell⟩ := hc
  obtain rfl : m' = m := Option.some.inj (hm'.symm.trans hm)
  by_cases hline : m'.bus.display.line ≤ Display.lastLine
  · have hacceptable : m'.WellFormed Display.Acceptable m₀ :=
      ⟨{ hwell.bus with
        display := ⟨hwell.bus.display.select, hline, hwell.bus.display.dots⟩ }, hwell.trace⟩
    obtain ⟨journal, himport⟩ := importState_of_acceptable hm hrebuild hacceptable
    rw [if_pos hline, himport]
  · rw [if_neg hline]
    exact importState_of_lastLine_lt hm hrebuild hwell (UInt8.not_le.mp hline)

/-- The display of an imported state is acceptable. -/
lemma acceptable {image : Array UInt8} {boot : Option (Array UInt8)}
    {c' : Console η} {bytes : List UInt8} (hbuild : Machine.build image boot config = .ok m₀)
    (hc : c.Holds P config m₀) (himport : c.importState bytes = (.ok (), c')) :
    c'.Holds Display.Acceptable config m₀ := by
  obtain ⟨m, hm, -⟩ := hc.machine
  rcases importState_cases hm (rebuild hbuild hc hm) bytes with
    ⟨body, m', journal, -, hrestored, heq⟩ | ⟨-, e, journal, heq⟩
  · obtain rfl : _ = c' := congrArg Prod.snd (heq.symm.trans himport)
    have hwell := Machine.wellFormed_restored (Machine.wellFormed_build hbuild) hrestored
      fun _ hd => hd.toAcceptable
    exact ⟨hc.config, _, rfl, hwell.withFile _⟩
  · cases congrArg Prod.fst (heq.symm.trans himport)

/-- A state that is refused leaves the machine as it was. -/
lemma refuseState {image : Array UInt8} {boot : Option (Array UInt8)} {bytes : List UInt8}
    (hbuild : Machine.build image boot config = .ok m₀) (hc : c.Holds P config m₀)
    (h : (c.importState bytes).1 ≠ .ok ()) : (c.importState bytes).2.Holds P config m₀ := by
  obtain ⟨m, hm, -⟩ := hc.machine
  rcases importState_cases hm (rebuild hbuild hc hm) bytes with
    ⟨_, _, _, -, -, himport⟩ | ⟨-, _, _, himport⟩
  · rw [himport] at h
    exact absurd rfl h
  · rw [himport]
    exact hc.congr rfl rfl

/-- An imported state is one of the same cartridge, and a state that is refused changes nothing. -/
lemma importState {image : Array UInt8} {boot : Option (Array UInt8)}
    (hbuild : Machine.build image boot config = .ok m₀) (hP : ∀ d, Display.Acceptable d → P d)
    (hc : c.Holds P config m₀) (bytes : List UInt8) :
    (c.importState bytes).2.Holds P config m₀ := by
  by_cases haccepted : (c.importState bytes).1 = .ok ()
  · exact (hc.acceptable hbuild (Prod.ext haccepted rfl)).mono hP
  · exact hc.refuseState hbuild haccepted

end Holds

/-- A console with a machine that was built from an image, and whose display has a given
property. -/
def Built (P : Display → Prop) (c : Console η) : Prop :=
  ∃ image boot config m₀, Machine.build image boot config = .ok m₀ ∧ c.Holds P config m₀

/-- What keeps the machine well-formed keeps that it was built. -/
lemma Built.imp {Q : Display → Prop} {c' : Console η} (hc : c.Built P)
    (h : ∀ {image boot config m₀}, Machine.build image boot config = .ok m₀ →
      c.Holds P config m₀ → c'.Holds Q config m₀) : c'.Built Q := by
  obtain ⟨image, boot, config, m₀, hbuild, hholds⟩ := hc
  exact ⟨image, boot, config, m₀, hbuild, h hbuild hholds⟩

variable [Host η]

/-- In a console with a cartridge there is a machine that was built from an image, and its display
has every property of the acceptable ones that lasts. -/
lemma Loaded.built (hP : Display.Lasting P) (hacceptable : ∀ d, Display.Acceptable d → P d)
    (hc : Loaded c) : c.Built P := by
  induction hc with
  | load image boot file h =>
    obtain ⟨m₀, hbuild, hholds⟩ := Holds.load rfl h
    exact ⟨image, boot, _, m₀, hbuild, hholds.mono fun d hd => hacceptable d hd.toAcceptable⟩
  | refuse image boot file h _ ih => exact ih.imp fun _ hholds => hholds.refuse h
  | step _ ih => exact ih.imp fun _ hholds => hholds.step hP
  | run limit breakpoints _ ih => exact ih.imp fun _ hholds => hholds.run hP limit breakpoints
  | write addr v _ ih => exact ih.imp fun _ hholds => hholds.write hP addr v
  | setRegister r v _ ih => exact ih.imp fun _ hholds => hholds.setRegister r v
  | debug r _ ih => exact ih.imp fun _ hholds => hholds.debug hP r
  | importBattery bytes h _ ih => exact ih.imp fun _ hholds => hholds.importBattery h
  | importState bytes _ ih =>
    exact ih.imp fun hbuild hholds => hholds.importState hbuild hacceptable bytes
  | outside host disk journal _ ih => exact ih.imp fun _ hholds => hholds.congr rfl rfl

/-- In a console with a cartridge there is a machine that was built from an image, whatever its
display is. -/
lemma Loaded.holds (hc : Loaded c) :
    ∃ image boot config m₀, Machine.build image boot config = .ok m₀ ∧
      c.Holds (fun _ => True) config m₀ :=
  hc.built Display.lasting_true fun _ _ => trivial

/-- The states that a console with a cartridge accepts are the saved states for the cartridge.
Nothing can be left out at the end of such a state, and nothing can be added. -/
theorem importState_grammar (hc : Loaded c) : ∃ m, c.machine = some m ∧ ∀ bytes,
    ((c.importState bytes).1 = .ok () ↔
      SavedState m.cartridge.header.kind m.cartridge.ram.size bytes) ∧
    ((c.importState bytes).1 = .ok () → ∀ other, other ≠ bytes →
      other <+: bytes ∨ bytes <+: other → (c.importState other).1 ≠ .ok ()) := by
  obtain ⟨image, boot, config, m₀, hbuild, hholds⟩ := hc.holds
  obtain ⟨-, m, hm, hwell⟩ := id hholds
  have hrebuild := Holds.rebuild hbuild hholds hm
  have hiff (bytes : List UInt8) : (c.importState bytes).1 = .ok () ↔
      SavedState m.cartridge.header.kind m.cartridge.ram.size bytes := by
    have hheader : m.cartridge.header = m₀.cartridge.header := hwell.bus.cartridge.header
    have hsize : m.cartridge.ram.size = m₀.cartridge.ram.size := hwell.bus.cartridge.ramSize
    rw [hheader, hsize, ← Machine.savedState_iff (Machine.wellFormed_build hbuild)]
    rcases importState_cases hm hrebuild bytes with
      ⟨body, m', journal, hbody, hrestored, himport⟩ | ⟨hrefused, e, journal, himport⟩
    · rw [himport]
      exact iff_of_true rfl ⟨body, hbody, m', hrestored⟩
    · rw [himport]
      exact iff_of_false nofun hrefused
  refine ⟨m, hm, fun bytes => ⟨hiff bytes, fun himport other hne hcomparable hother => hne ?_⟩⟩
  have hlength : other.length = bytes.length :=
    ((hiff other).mp hother).length.trans ((hiff bytes).mp himport).length.symm
  rcases hcomparable with hshorter | hlonger
  · exact hshorter.eq_of_length hlength
  · exact (hlonger.eq_of_length hlength.symm).symm

/-- What `importState_grammar` says about the small cartridge: the state of the machine that has
just been switched on is accepted, and is not accepted any more with another byte at its end. -/
theorem importState_grammar_plainImage :
    let c := (unused.load Cartridge.plainImage).2
    ∃ bytes, (c.importState bytes).1 = .ok () ∧ (c.importState (bytes ++ [0])).1 ≠ .ok () := by
  intro c
  have hc : Loaded c := .load Cartridge.plainImage none none (load_plainImage unused).1
  obtain ⟨m₀, hbuild, hholds⟩ := Holds.load (c := unused) rfl (load_plainImage unused).1
  obtain ⟨m, hm, hgrammar⟩ := importState_grammar hc
  have haccepted : (c.importState m.save).1 = .ok () :=
    (Holds.importState_save hbuild hholds hm).trans (if_pos (hholds.display hm).line)
  obtain ⟨-, hrefuse⟩ := hgrammar m.save
  exact ⟨m.save, haccepted, hrefuse haccepted _ (by simp) (.inr (List.prefix_append _ _))⟩

end Console

end Handheld
