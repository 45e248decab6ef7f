import Handheld.Proofs.Closure

/-!
# Normal forms of saved states

Importing a state normalizes it: any byte that is not zero is a flag that is set, registers are
masked, counters are reduced to their periods, and what follows from other fields is computed again.
So the state that is exported afterwards may differ from the one that was imported.

The main statement is `Console.importState_normal_form`.  The exported state is as long as the
imported one, and every console with the same cartridge, start-up program and settings accepts it,
holds the machine that was imported from then on, and exports the same state again.  It is enough
that the display of the machine is acceptable (`Console.Holds.importState_save_of`); no run needs to
lead to the machine.
-/

namespace Handheld

/-- The file of the battery is not saved. -/
lemma Machine.save_withFile (m : Machine) (file : Option String) :
    ({ m with batteryFile := file } : Machine).save = m.save := by
  simp only [save, record, Record.save_append, Record.save_within, cartridge]

namespace Console

variable {η θ : Type} {c : Console η} {d : Console θ} {P : Display → Prop} {config : Config}
  {m₀ : Machine} {image : Array UInt8} {boot : Option (Array UInt8)}

/-- All accepted states for a cartridge have the same length. -/
lemma Holds.length_of_importState {m : Machine} {bytes : List UInt8}
    (hbuild : Machine.build image boot config = .ok m₀) (hc : c.Holds P config m₀)
    (hm : c.machine = some m) (h : (c.importState bytes).1 = .ok ()) :
    bytes.length = 39841 + m₀.cartridge.header.kind.width + m₀.cartridge.ram.size := by
  rcases importState_cases hm (hc.rebuild hbuild hm) bytes with
    ⟨body, m', journal, hbody, hrestored, -⟩ | ⟨-, e, journal, himport⟩
  · have hsaved := (Machine.savedState_iff (Machine.wellFormed_build hbuild)).mp
      ⟨body, hbody, m', hrestored⟩
    exact hsaved.length
  · rw [himport] at h
    cases h

/-- The state of a machine with an acceptable display is imported into any console with the same
cartridge and settings; nothing of the machine is lost but the file of its battery. -/
theorem Holds.importState_save_of {m k : Machine}
    (hbuild : Machine.build image boot config = .ok m₀)
    (hm : m.WellFormed Display.Acceptable m₀) (hd : d.Holds P config m₀)
    (hk : d.machine = some k) : ∃ d', d.importState m.save = (.ok (), d') ∧
      d'.machine = some { m with batteryFile := k.batteryFile } ∧
      d'.exportState = .ok m.save := by
  obtain ⟨journal, himport⟩ := importState_of_acceptable hk (hd.rebuild hbuild hk) hm
  refine ⟨_, himport, rfl, ?_⟩
  rw [← m.save_withFile k.batteryFile]
  exact exportState_eq rfl

/-- Consoles with the same cartridge, start-up program and settings have machines that were built in
the same way. -/
lemma Loaded.holds_of_source [Host θ] {m k : Machine}
    (hbuild : Machine.build image boot config = .ok m₀) (hc : c.Holds P config m₀)
    (hm : c.machine = some m) (hd : Loaded d) (hk : d.machine = some k)
    (hrom : k.cartridge.rom = m.cartridge.rom) (hboot : k.bus.bootRom = m.bus.bootRom)
    (hconfig : d.config = c.config) : d.Holds (fun _ => True) config m₀ := by
  obtain ⟨image', boot', config', k₀, hbuild', hholds⟩ := hd.holds
  have hsame := hc.rebuild hbuild hm
  have hother := hholds.rebuild hbuild' hk
  rw [hrom, hboot, hconfig] at hother
  obtain rfl : m₀ = k₀ := Except.ok.inj (hsame.symm.trans hother)
  obtain rfl : config' = config := hholds.config.symm.trans (hconfig.trans hc.config)
  exact hholds

/-- What is exported right after a state was imported is the normal form of the state: it has the
same length, it is accepted by every console with the same cartridge, start-up program and settings,
the machine there is then the one that was imported, up to the file of its battery, and the state
that is exported from it is the normal form again. -/
theorem importState_normal_form [Host η] {c' : Console η} {bytes : List UInt8} (hc : Loaded c)
    (himport : c.importState bytes = (.ok (), c')) :
    ∃ m exported, c'.machine = some m ∧ c'.exportState = .ok exported ∧
      exported.length = bytes.length ∧
      ∀ (θ : Type) [Host θ] (d : Console θ) (k : Machine), Loaded d → d.machine = some k →
        k.cartridge.rom = m.cartridge.rom → k.bus.bootRom = m.bus.bootRom →
        d.config = c.config →
        ∃ d', d.importState exported = (.ok (), d') ∧
          d'.machine = some { m with batteryFile := k.batteryFile } ∧
          d'.exportState = .ok exported := by
  obtain ⟨image, boot, config, m₀, hbuild, hholds⟩ := hc.holds
  obtain ⟨n, hn, -⟩ := hholds.machine
  have hacceptable := hholds.acceptable hbuild himport
  obtain ⟨m, hm, hwell⟩ := hacceptable.machine
  obtain ⟨c'', hagain, -, -⟩ := Holds.importState_save_of hbuild hwell hholds hn
  have hlength := hholds.length_of_importState hbuild hn (congrArg Prod.fst himport)
  have hlength' := hholds.length_of_importState hbuild hn (congrArg Prod.fst hagain)
  refine ⟨m, m.save, hm, exportState_eq hm, hlength'.trans hlength.symm, ?_⟩
  intro θ _ d k hd hk hrom hboot hconfig
  have hconfig' : d.config = c'.config :=
    hconfig.trans (hholds.config.trans hacceptable.config.symm)
  have hholds' := Loaded.holds_of_source hbuild hacceptable hm hd hk hrom hboot hconfig'
  exact Holds.importState_save_of hbuild hwell hholds' hk

/-- What `importState_normal_form` says about the small cartridge: a state is imported and exported,
and a console that has taken a step goes to the same machine. -/
theorem importState_normal_form_plainImage :
    let c := (unused.load Cartridge.plainImage).2
    let d := c.stepOnce.2
    ∃ bytes c' m exported d' file, c.importState bytes = (.ok (), c') ∧ c'.machine = some m ∧
      c'.exportState = .ok exported ∧ d.importState exported = (.ok (), d') ∧
      d'.machine = some { m with batteryFile := file } ∧ d'.exportState = .ok exported := by
  intro c d
  have hc : Loaded c := .load Cartridge.plainImage none none (load_plainImage unused).1
  obtain ⟨m₀, hbuild, hholds⟩ := Holds.load (c := unused) rfl (load_plainImage unused).1
  obtain ⟨m, hm, hwell⟩ := hholds.machine
  obtain ⟨c', himport, hm', -⟩ := Holds.importState_save_of hbuild
    (hwell.mono fun _ hd => hd.toAcceptable) hholds hm
  obtain ⟨n, exported, hn, hexported, -, hnormal⟩ := importState_normal_form hc himport
  have hd : d.Holds Display.WellFormed unused.config m₀ :=
    Holds.step Display.lasting_wellFormed hholds
  obtain ⟨hconfig, k, hk, hk'⟩ := hd
  obtain rfl := Option.some.inj (hn.symm.trans hm')
  have hrom : k.cartridge.rom = m.cartridge.rom :=
    hk'.bus.cartridge.rom.trans hwell.bus.cartridge.rom.symm
  have hboot : k.bus.bootRom = m.bus.bootRom := hk'.bus.bootRom.trans hwell.bus.bootRom.symm
  obtain ⟨d', himport', hd', hexported'⟩ := hnormal Solitude d k (.step hc) hk hrom hboot
    (hconfig.trans hholds.config.symm)
  exact ⟨m.save, c', _, exported, d', k.batteryFile, himport, hn, hexported, himport', hd',
    hexported'⟩

end Console

end Handheld
