import Handheld.Proofs.Grammar

/-!
# Operations that fail

Inserting a cartridge and bringing back its RAM or a saved state are long operations, and most of
their steps can fail.  `Attempt.perform` spells them out as effects on the console in the order in
which they happen, so that whatever was changed before a step that fails stays changed.  They
compute what `Console.load`, `Console.importBattery` and `Console.importState` compute
(`Attempt.run_load`, `Attempt.run_importBattery`, `Attempt.run_importState`).

The main statement is `Attempt.run_of_error`: an operation that fails leaves the console as it was,
except for the diagnostics that it has noted.  The reason is the order of the effects: all steps
that can fail are `Effect.Quiet`, and they come before all others (`Effect.Guarded`).
-/

namespace Handheld

/-! ### Effects -/

/-- Effects on a console that end with a value or a failure; a failure does not undo what was done
before. -/
abbrev Effect (η α : Type) := ExceptT Error (StateM (Console η)) α

namespace Effect

variable {η α β : Type}

/-- How a console goes through effects. -/
def apply (x : Effect η α) (c : Console η) : Except Error α × Console η := (x.run).run c

/-- The effects change nothing but the journal. -/
def Quiet (x : Effect η α) : Prop :=
  ∀ c, ∃ journal, (x.apply c).2 = { c with journal := journal }

/-- The effects do not fail. -/
def Total (x : Effect η α) : Prop := ∀ c, ∃ a, (x.apply c).1 = .ok a

/-- The effects have changed nothing but the journal if they fail. -/
def Guarded (x : Effect η α) : Prop :=
  ∀ c e, (x.apply c).1 = .error e → ∃ journal, (x.apply c).2 = { c with journal := journal }

/-- Effects one after the other. -/
lemma apply_bind (x : Effect η α) (f : α → Effect η β) (c : Console η) :
    (x >>= f).apply c =
      match x.apply c with
      | (.ok a, c) => (f a).apply c
      | (.error e, c) => (.error e, c) := by
  simp only [apply, ExceptT.run_bind, StateT.run_bind]
  rcases x.run.run c with ⟨_ | _, c'⟩
  · rfl
  · rfl

variable {x : Effect η α} {f : α → Effect η β}

/-- An effect that comes from a value or a failure. -/
def check (r : Except Error α) : Effect η α := ExceptT.mk (pure r)

/-- An effect that changes the console. -/
def change (f : Console η → Console η) : Effect η Unit := modify f

/-- A check goes on with the value, or ends with the failure. -/
@[simp] lemma apply_check_bind (r : Except Error α) (f : α → Effect η β) (c : Console η) :
    (check r >>= f).apply c =
      match r with
      | .ok a => (f a).apply c
      | .error e => (.error e, c) := by
  rw [apply_bind]
  cases r with
  | ok a => rfl
  | error e => rfl

/-- A change goes on with the changed console. -/
@[simp] lemma apply_change_bind (g : Console η → Console η) (f : Unit → Effect η β)
    (c : Console η) : (change g >>= f).apply c = (f ()).apply (g c) := rfl

/-- Looking at the console goes on with what was seen. -/
@[simp] lemma apply_get_bind (f : Console η → Effect η β) (c : Console η) :
    ((get : Effect η (Console η)) >>= f).apply c = (f c).apply c := rfl

@[simp] lemma apply_change (g : Console η → Console η) (c : Console η) :
    (change g).apply c = (.ok (), g c) := rfl

/-- A check changes nothing. -/
lemma quiet_check (r : Except Error α) : Quiet (check r : Effect η α) :=
  fun c => ⟨c.journal, rfl⟩

/-- Looking at the console changes nothing. -/
lemma quiet_get : Quiet (get : Effect η (Console η)) := fun c => ⟨c.journal, rfl⟩

/-- A diagnostic changes nothing but the journal. -/
lemma quiet_note (d : Option Diagnostic) :
    Quiet (change fun c : Console η => { c with journal := c.journal.note? d }) :=
  fun c => ⟨c.journal.note? d, rfl⟩

/-- A change does not fail. -/
lemma total_change (f : Console η → Console η) : Total (change f) := fun _ => ⟨(), rfl⟩

/-- Effects that do not fail, one after the other, do not fail. -/
lemma Total.bind (hx : Total x) (hf : ∀ a, Total (f a)) : Total (x >>= f) := by
  intro c
  obtain ⟨a, ha⟩ := hx c
  obtain ⟨b, hb⟩ := hf a (x.apply c).2
  refine ⟨b, ?_⟩
  rw [apply_bind, show x.apply c = (.ok a, (x.apply c).2) from Prod.ext ha rfl]
  exact hb

/-- What does not fail is guarded. -/
lemma Total.guarded (hx : Total x) : Guarded x := by
  intro c e herror
  obtain ⟨a, ha⟩ := hx c
  rw [ha] at herror
  cases herror

/-- What is guarded stays so if quiet effects come before it. -/
lemma Quiet.bind (hx : Quiet x) (hf : ∀ a, Guarded (f a)) : Guarded (x >>= f) := by
  intro c e herror
  obtain ⟨journal, hjournal⟩ := hx c
  rw [apply_bind] at herror ⊢
  rcases hx' : x.apply c with ⟨outcome, c'⟩
  rw [hx'] at hjournal herror
  obtain rfl : c' = { c with journal := journal } := hjournal
  cases outcome with
  | error e' => exact ⟨journal, rfl⟩
  | ok a => exact hf a _ e herror

end Effect

/-! ### Attempts -/

/-- An operation that can fail in the middle. -/
inductive Attempt
  /-- Insert a cartridge. -/
  | load (image : Array UInt8) (boot : Option (Array UInt8)) (batteryFile : Option String)
  /-- Replace the RAM of the cartridge by what a source delivers. -/
  | importBattery (source : Except IoFault (List UInt8))
  /-- Go back to the saved state that a source delivers. -/
  | importState (source : Except IoFault (List UInt8))

namespace Attempt

open Effect

variable {η : Type}

/-- A change of the machine. -/
def withMachine (f : Machine → Machine) (c : Console η) : Console η :=
  { c with machine := c.machine.map f }

/-- The effects of an operation in their order. -/
def perform : Attempt → Effect η Unit
  | load image boot file => do
    let m ← check (Machine.build image boot (← get).config)
    change (·.note (.cartridge m.cartridge.header))
    let (m, d) ← check (Console.withKept { m with batteryFile := file } (← get).disk)
    change fun c => { c with journal := c.journal.note? d }
    change Console.retire
    change fun c => { c with machine := some m }
  | importBattery source => do
    let m ← check (← get).requireMachine
    let bytes ← check (source.mapError .io)
    let expected := m.cartridge.ram.size
    check (if bytes.length = expected then .ok () else .error (.lengthMismatch expected bytes.length))
    change (withMachine (·.withRam bytes.toArray))
  | importState source => do
    let c ← get
    let m ← check c.requireMachine
    let bytes ← check (source.mapError .io)
    let body ← check ((Machine.stateBody bytes).mapError .badSnapshot)
    let fresh ← check (Machine.build m.cartridge.rom m.bus.bootRom c.config)
    change (·.note (.cartridge fresh.cartridge.header))
    let scratch ← check ((Machine.restored fresh body).mapError .badSnapshot)
    change (withMachine fun m => { m with cpu := scratch.cpu })
    change (withMachine fun m => { m with bus := scratch.bus })
    change (withMachine fun m => { m with clock := scratch.clock })

/-- How a console goes through an operation. -/
def run (a : Attempt) (c : Console η) : Except Error Unit × Console η := a.perform.apply c

/-- Inserting a cartridge. -/
theorem run_load (image : Array UInt8) (boot : Option (Array UInt8)) (file : Option String)
    (c : Console η) : (load image boot file).run c = c.load image boot file := by
  simp only [run, perform, Console.load, apply_get_bind, apply_check_bind, apply_change_bind,
    apply_change]
  cases Machine.build image boot c.config with
  | error e => rfl
  | ok m =>
    simp only
    cases Console.withKept { m with batteryFile := file } (c.note _).disk with
    | error e => rfl
    | ok kept => rfl

/-- Replacing the RAM of the cartridge. -/
theorem run_importBattery (bytes : List UInt8) (c : Console η) :
    (importBattery (.ok bytes)).run c =
      match c.importBattery bytes with
      | .ok c' => (.ok (), c')
      | .error e => (.error e, c) := by
  obtain ⟨config, machine, host, disk, journal⟩ := c
  cases machine with
  | none => rfl
  | some m =>
    have hbytes : Except.mapError Error.io (.ok bytes) = .ok bytes := rfl
    simp only [run, perform, Console.importBattery, Console.requireMachine, apply_get_bind,
      apply_check_bind, hbytes]
    by_cases hlength : bytes.length = m.cartridge.ram.size
    · simp [hlength, bind, Except.bind, withMachine]
      rfl
    · simp [hlength, bind, Except.bind, throw, throwThe, MonadExceptOf.throw]

/-- Going back to a saved state. -/
theorem run_importState (bytes : List UInt8) (c : Console η) :
    (importState (.ok bytes)).run c = c.importState bytes := by
  obtain ⟨config, machine, host, disk, journal⟩ := c
  cases machine with
  | none => rfl
  | some m =>
    have hbytes : Except.mapError Error.io (.ok bytes) = .ok bytes := rfl
    simp only [run, perform, Console.importState, Console.requireMachine, apply_get_bind,
      apply_check_bind, apply_change_bind, apply_change, hbytes]
    cases Machine.stateBody bytes with
    | error fault => rfl
    | ok body =>
      simp only [Except.mapError]
      cases Machine.build m.cartridge.rom m.bus.bootRom config with
      | error e => rfl
      | ok fresh =>
        simp only
        cases Machine.restored fresh body with
        | error fault => rfl
        | ok scratch => rfl

/-- The steps of an operation that can fail come before the first one that changes anything. -/
lemma guarded_perform (a : Attempt) : Guarded (a.perform : Effect η Unit) := by
  cases a with
  | load image boot file =>
    refine quiet_get.bind fun c => (quiet_check _).bind fun m => ?_
    refine (quiet_note (some _)).bind fun _ => quiet_get.bind fun c => ?_
    refine (quiet_check _).bind fun kept => (quiet_note _).bind fun _ => Total.guarded ?_
    exact (total_change _).bind fun _ => total_change _
  | importBattery source =>
    refine quiet_get.bind fun c => (quiet_check _).bind fun m => ?_
    refine (quiet_check _).bind fun bytes => (quiet_check _).bind fun _ => Total.guarded ?_
    exact total_change _
  | importState source =>
    refine quiet_get.bind fun c => (quiet_check _).bind fun m => ?_
    refine (quiet_check _).bind fun bytes => (quiet_check _).bind fun body => ?_
    refine (quiet_check _).bind fun fresh => (quiet_note (some _)).bind fun _ => ?_
    refine (quiet_check _).bind fun scratch => Total.guarded ?_
    exact (total_change _).bind fun _ => (total_change _).bind fun _ => total_change _

/-- An operation that fails leaves the console as it was, with all of its machine and the name of
its battery, its settings, its disk and its host; only the journal tells that something was
tried. -/
theorem run_of_error {a : Attempt} {c c' : Console η} {e : Error} (h : a.run c = (.error e, c')) :
    c' = { c with journal := c'.journal } := by
  obtain ⟨journal, hjournal⟩ := a.guarded_perform c e (congrArg Prod.fst h)
  have hc' : c' = { c with journal := journal } := (congrArg Prod.snd h).symm.trans hjournal
  rw [hc']

/-- A state that ends after its first bytes is refused, but only after a machine for it was
built. -/
lemma importState_header {P : Display → Prop} {image : Array UInt8} {boot : Option (Array UInt8)}
    {config : Config} {fresh : Machine} {c : Console η}
    (hbuild : Machine.build image boot config = .ok fresh) (hc : c.Holds P config fresh) :
    (c.importState (Machine.stateMagic ++ [Machine.stateVersion])).1 =
      .error (.badSnapshot (.component .endOfStream)) := by
  obtain ⟨m, hm, -⟩ := hc.machine
  have hrebuild := hc.rebuild hbuild hm
  have hbody : Machine.stateBody (Machine.stateMagic ++ [Machine.stateVersion]) = .ok [] := rfl
  have hrestored : Machine.restored fresh [] = .error (.component .endOfStream) := rfl
  simp only [Console.importState, hm, hbody, hrebuild, hrestored]

/-- The console with the small cartridge stays as it was if a state ends after its first bytes. -/
theorem run_of_error_header :
    let c := (Console.unused.load Cartridge.plainImage).2
    let a := importState (.ok (Machine.stateMagic ++ [Machine.stateVersion]))
    ∃ c', a.run c = (.error (.badSnapshot (.component .endOfStream)), c') ∧
      c' = { c with journal := c'.journal } := by
  intro c a
  obtain ⟨m₀, hbuild, hholds⟩ :=
    Console.Holds.load (c := Console.unused) rfl (Console.load_plainImage Console.unused).1
  have herror : (a.run c).1 = .error (.badSnapshot (.component .endOfStream)) :=
    (congrArg Prod.fst (run_importState _ c)).trans (importState_header hbuild hholds)
  have hrun : a.run c = ((a.run c).1, (a.run c).2) := (Prod.eta _).symm
  rw [herror] at hrun
  exact ⟨_, hrun, run_of_error hrun⟩

end Attempt

end Handheld
