import Handheld.Config
import Handheld.Proofs.Json.Printing
import Mathlib.Data.List.Nodup

/-!
# The configuration as a text

A configuration is printed as an object of all its settings, but it is read from every object of
some of them.  `Config.Settings` are these: any subset of the settings, with their keys and the
texts of their values, `Settings.members`, and the configuration in which the others have their
defaults, `Settings.config`.

The main statement is `Config.round_trip`.  It says that printing and reading are inverse; that the
order of the members, the blanks, the spelling of the keys and the members that are left out make no
difference; and that a key which is unknown or occurs twice does.  All of this is up to
`Config.checked`, which refuses a configuration that never looks at the buttons.
-/

namespace Handheld

namespace Config

open Json

/-- The configuration, unless it looks at the buttons without pause. -/
def checked (c : Config) : Except Error Config :=
  if c.pollCycles = 0 then .error (.config .zeroPollCycles) else .ok c

/-- Some of the settings. -/
structure Settings where
  reportUnmapped : Option Bool := none
  traceInstructions : Option Bool := none
  pollCycles : Option UInt32 := none

namespace Settings

/-- The configuration with these settings, and with the defaults in place of the others. -/
def config (s : Settings) : Config where
  reportUnmapped := s.reportUnmapped.getD true
  traceInstructions := s.traceInstructions.getD false
  pollCycles := s.pollCycles.getD 16384

/-- The keys of these settings with the texts of their values.  A word has only one text: a number
with a sign, a fraction or an exponent is not read as a word. -/
def members (s : Settings) : List (String × String) :=
  (s.reportUnmapped.map fun b => (reportUnmappedKey, bool b)).toList ++
    (s.traceInstructions.map fun b => (traceInstructionsKey, bool b)).toList ++
    (s.pollCycles.map fun n => (pollCyclesKey, natural n.toNat)).toList

/-- The keys of these settings with the values that they are read as. -/
def values (s : Settings) : List (String × Value) :=
  (s.reportUnmapped.map fun b => (reportUnmappedKey, Value.bool b)).toList ++
    (s.traceInstructions.map fun b => (traceInstructionsKey, Value.bool b)).toList ++
    (s.pollCycles.map fun n => (pollCyclesKey, Value.number (some n.toNat))).toList

/-- All settings of a configuration. -/
def ofConfig (c : Config) : Settings where
  reportUnmapped := c.reportUnmapped
  traceInstructions := c.traceInstructions
  pollCycles := c.pollCycles

/-- These settings are the configuration. -/
@[simp] lemma config_ofConfig (c : Config) : (ofConfig c).config = c := rfl

/-! ### The values of some settings -/

/-- The texts of the values are read as the values. -/
lemma reads_values (s : Settings) :
    List.Forall₂ (fun member part => member.1 = part.1 ∧ Reads member.2.toList part.2)
      s.members s.values := by
  have htoList {α : Type} (a? : Option α) (key : String) (text : α → String) (value : α → Value)
      (h : ∀ a, Reads (text a).toList (value a)) :
      List.Forall₂ (fun (member : String × String) (part : String × Value) =>
        member.1 = part.1 ∧ Reads member.2.toList part.2)
        (a?.map fun a => (key, text a)).toList (a?.map fun a => (key, value a)).toList := by
    cases a? with
    | none => exact .nil
    | some a => exact .cons ⟨rfl, h a⟩ .nil
  exact List.rel_append (List.rel_append (htoList _ _ _ _ reads_bool) (htoList _ _ _ _ reads_bool))
    (htoList _ _ _ _ fun n => reads_natural n.toNat)

/-- The keys of the settings are known. -/
lemma mem_keys {s : Settings} {part : String × Value} (h : part ∈ s.values) : part.1 ∈ keys := by
  simp only [values, List.mem_append, Option.mem_toList, Option.map_eq_some_iff] at h
  rcases h with (⟨b, -, rfl⟩ | ⟨b, -, rfl⟩) | ⟨n, -, rfl⟩
  · exact List.mem_cons_self
  · exact List.mem_cons_of_mem _ List.mem_cons_self
  · exact List.mem_cons_of_mem _ (List.mem_cons_of_mem _ List.mem_cons_self)

/-- Each setting has its own key. -/
lemma valuesOf_values (s : Settings) :
    valuesOf s.values reportUnmappedKey = (s.reportUnmapped.map Value.bool).toList ∧
    valuesOf s.values traceInstructionsKey = (s.traceInstructions.map Value.bool).toList ∧
    valuesOf s.values pollCyclesKey =
      (s.pollCycles.map fun n => Value.number (some n.toNat)).toList := by
  obtain ⟨report?, trace?, poll?⟩ := s
  cases report? <;> cases trace? <;> cases poll? <;> exact ⟨rfl, rfl, rfl⟩

/-- A configuration is read from the values of some settings in any order. -/
lemma ofMembers?_of_perm {s : Settings} {found : List (String × Value)}
    (h : found.Perm s.values) : ofMembers? found = some s.config := by
  have hknown : ¬ (found.any fun member => !keys.contains member.1) = true := by
    rw [Bool.not_eq_true, List.any_eq_false]
    intro part hpart
    simp [mem_keys (h.subset hpart)]
  obtain ⟨hreport, htrace, hpoll⟩ := s.valuesOf_values
  rw [ofMembers?, if_neg hknown]
  simp only [optional?_of_perm h hreport (·.bool?) fun _ => rfl,
    optional?_of_perm h htrace (·.bool?) fun _ => rfl,
    optional?_of_perm h hpoll (·.word?) word?_toNat]
  rfl

end Settings

/-- The printed configuration has the members of all its settings. -/
lemma toJson_eq (c : Config) : c.toJson = object (Settings.ofConfig c).members := rfl

/-! ### Reading -/

variable {members : List (String × Value)} {c : Config}

/-- A configuration is read from known keys, each of which occurs once. -/
lemma keys_of_ofMembers? (h : ofMembers? members = some c) :
    (∀ part ∈ members, part.1 ∈ keys) ∧ (members.map Prod.fst).Nodup := by
  rw [ofMembers?] at h
  split at h
  · cases h
  · rename_i hknown
    have hkeys : ∀ part ∈ members, part.1 ∈ keys := by simpa using hknown
    obtain ⟨report, hreport, h⟩ := Option.bind_eq_some_iff.mp h
    obtain ⟨trace, htrace, h⟩ := Option.bind_eq_some_iff.mp h
    obtain ⟨poll, hpoll, -⟩ := Option.bind_eq_some_iff.mp h
    refine ⟨hkeys, List.nodup_iff_count_le_one.mpr fun key => ?_⟩
    rw [← length_valuesOf]
    by_cases hkey : key ∈ keys
    · simp only [keys, List.mem_cons, List.not_mem_nil, or_false] at hkey
      rcases hkey with rfl | rfl | rfl
      · exact length_valuesOf_le hreport
      · exact length_valuesOf_le htrace
      · exact length_valuesOf_le hpoll
    · have hnone : key ∉ members.map Prod.fst := by
        rintro hmem
        obtain ⟨part, hpart, rfl⟩ := List.mem_map.mp hmem
        exact hkey (hkeys part hpart)
      rw [length_valuesOf, List.count_eq_zero_of_not_mem hnone]
      exact Nat.zero_le 1

/-- A text is read as the value that it stands for is. -/
lemma ofJson?_full {i : Json.Item} {v : Value} (hreads : Reads i.text v) (hblank : i.Blank) :
    ofJson? (String.ofList i.full) =
      match ofValue? v with
      | none => .error (.config .malformed)
      | some c => c.checked := by
  rw [ofJson?, String.toList_ofList, Item.full, hreads.read? hblank.before hblank.after]
  rfl

/-- An accepted configuration looks at the buttons now and then. -/
lemma checked_of_ofJson? {text : String} (h : ofJson? text = .ok c) : c.checked = .ok c := by
  rw [ofJson?] at h
  split at h
  · cases h
  · rename_i c' _
    have hchecked : c'.checked = .ok c := h
    rw [checked] at hchecked
    split at hchecked
    · cases hchecked
    · rename_i hpoll
      obtain rfl : c' = c := Except.ok.inj hchecked
      exact if_neg hpoll

/-- A configuration is read from every text of some settings. -/
lemma ofJson?_of_writes (s : Settings) {members : List (String × String)} {i : Json.Item}
    (hperm : members.Perm s.members) (hwrites : Writes members i.text) (hblank : i.Blank) :
    ofJson? (String.ofList i.full) = s.config.checked := by
  obtain ⟨found, hfound, hvalues⟩ := List.perm_comp_forall₂ hperm s.reads_values
  rw [ofJson?_full (hwrites.reads hfound) hblank, ofValue?, members?_map_some, Option.bind_some,
    Settings.ofMembers?_of_perm hvalues]
  nofun

/-- The printed configuration is read as the configuration. -/
lemma ofJson?_toJson (c : Config) : ofJson? c.toJson = c.checked := by
  generalize htext : c.toJson = text
  have hwrites : Writes (Settings.ofConfig c).members text.toList := by
    rw [← htext, toJson_eq]
    exact writes_object _
  have hnone : Blanks [] := nofun
  have hread := ofJson?_of_writes (Settings.ofConfig c) (i := ⟨[], text.toList, []⟩) (.refl _)
    hwrites ⟨hnone, hnone⟩
  simpa [Item.full] using hread

/-- Some key of the members is not one of a configuration. -/
def Unknown (parts : List Member) : Prop := ∃ m ∈ parts, ∀ key ∈ keys, ¬ Spells m.key.text key

/-- An object with an unknown key, or with one that occurs twice, is refused. -/
lemma ofJson?_of_unknown_or_repeated {parts : List Member} (hparts : IsObject parts)
    (hkeys : Unknown parts ∨ Repeated parts) {i : Json.Item} (htext : i.text = objectText parts)
    (hblank : i.Blank) : ofJson? (String.ofList i.full) = .error (.config .malformed) := by
  have hne : parts ≠ [] := by
    rintro rfl
    rcases hkeys with ⟨m, hm, -⟩ | ⟨m, m', name, hsub, -⟩
    · cases hm
    · cases hsub
  obtain ⟨found, hreads, hnames⟩ := hparts.exists_reads hne
  rw [← htext] at hreads
  have hnone : ofValue? (.object found) = none := by
    rw [Option.eq_none_iff_forall_ne_some]
    intro c hc
    obtain ⟨members, hmembers, hc⟩ := Option.bind_eq_some_iff.mp hc
    obtain ⟨hknown, hnodup⟩ := keys_of_ofMembers? hc
    rw [eq_map_of_members? hmembers, List.forall₂_map_right_iff] at hnames
    rcases hkeys with ⟨m, hm, hunknown⟩ | hrepeated
    · obtain ⟨part, hpart, hname⟩ := exists_mem_forall₂ hm hnames
      exact hunknown part.1 (hknown part hpart) ((hname part.1).mp rfl)
    · exact not_repeated_of_nodup hnames hnodup hrepeated
  rw [ofJson?_full hreads hblank, hnone]

/-- Reading is the inverse of printing.  It takes every text of an object with some of the settings
for the configuration with these settings and the defaults in place of the others, and refuses an
object with another key or with a key that occurs twice.  So an accepted text may be replaced with
the printed configuration. -/
theorem round_trip :
    (∀ c : Config, ofJson? c.toJson = c.checked) ∧
    (∀ (s : Settings) (members : List (String × String)) (i : Json.Item), members.Perm s.members →
      Writes members i.text → i.Blank → ofJson? (String.ofList i.full) = s.config.checked) ∧
    (∀ (parts : List Member) (i : Json.Item), IsObject parts → Unknown parts ∨ Repeated parts →
      i.text = objectText parts → i.Blank →
      ofJson? (String.ofList i.full) = .error (.config .malformed)) ∧
    ∀ (text : String) (c : Config), ofJson? text = .ok c → ofJson? c.toJson = ofJson? text := by
  refine ⟨ofJson?_toJson, fun s members i => ofJson?_of_writes s, fun parts i hparts hkeys =>
    ofJson?_of_unknown_or_repeated hparts hkeys, fun text c h => ?_⟩
  rw [ofJson?_toJson, h, checked_of_ofJson? h]

/-- Two settings in another order, with blanks and with an escape in a key; an unknown key; and a
key that occurs twice. -/
theorem round_trip_swapped :
    let poll : Json.Member := ⟨⟨[' '], (quote pollCyclesKey).toList, []⟩, ⟨[], ['6', '0'], ['\n']⟩⟩
    let trace : Json.Member :=
      ⟨⟨[], "\"\\u0074race_instructions\"".toList, [' ']⟩, ⟨[' '], "true".toList, []⟩⟩
    let speed : Json.Member := ⟨⟨[], (quote "speed").toList, []⟩, ⟨[], "true".toList, []⟩⟩
    let text (parts : List Json.Member) := String.ofList (objectText parts ++ ['\n'])
    ofJson? (text [poll, trace]) = .ok { traceInstructions := true, pollCycles := 60 } ∧
    ofJson? (text [speed, trace]) = .error (.config .malformed) ∧
    ofJson? (text [trace, trace]) = .error (.config .malformed) ∧
    ofJson? (toJson { traceInstructions := true, pollCycles := 60 }) =
      ofJson? (text [poll, trace]) := by
  intro poll trace speed text
  obtain ⟨-, hwritten, hrefused, haccepted⟩ := round_trip
  have hnone : Blanks [] := nofun
  have hspace : Blanks [' '] := List.forall_mem_singleton.mpr rfl
  have hline : Blanks ['\n'] := List.forall_mem_singleton.mpr rfl
  have hpoll : poll.Writes (pollCyclesKey, natural 60) := by
    refine ⟨⟨⟨hspace, hnone⟩, ⟨hnone, hline⟩⟩, ?_, rfl⟩
    simp only [poll]
    exact spells_quote pollCyclesKey
  have htrace : trace.Writes (traceInstructionsKey, bool true) := by
    have hbody := (spelled_flatMap "race_instructions".toList).unit (a := '0') (i := 0) (b := '0')
      (j := 0) (c := '7') (k := 7) (d := '4') (l := 4) (by decide) (by decide) (by decide) (by decide)
    exact ⟨⟨⟨hnone, hspace⟩, ⟨hspace, hnone⟩⟩,
      ⟨_, _, by decide, hbody, units_map traceInstructionsKey.toList⟩, rfl⟩
  have hspeed : speed.Writes ("speed", bool true) := by
    refine ⟨⟨⟨hnone, hnone⟩, ⟨hnone, hnone⟩⟩, ?_, rfl⟩
    simp only [speed]
    exact spells_quote "speed"
  have hobject {m : Json.Member} {key : String} (hm : m.Writes (key, bool true)) :
      IsObject [m, trace] := by
    refine isObject_of_writes (.cons hm (.cons htrace .nil)) ?_
    rw [List.forall_mem_cons, List.forall_mem_singleton]
    exact ⟨.true, .true⟩
  have hunknown : Unknown [speed, trace] := by
    refine ⟨speed, List.mem_cons_self, fun key hkey hspells => ?_⟩
    rw [← hspeed.key.unique hspells] at hkey
    exact absurd hkey (by decide)
  have hread : ofJson? (text [poll, trace]) = .ok { traceInstructions := true, pollCycles := 60 } :=
    hwritten ⟨none, some true, some 60⟩
      [(pollCyclesKey, natural 60), (traceInstructionsKey, bool true)]
      ⟨[], objectText [poll, trace], ['\n']⟩ (.swap _ _ _)
      (.object (List.cons_ne_nil _ _) (.cons hpoll (.cons htrace .nil))) ⟨hnone, hline⟩
  have hrefuse {parts : List Json.Member} (hparts : IsObject parts)
      (hkeys : Unknown parts ∨ Repeated parts) :
      ofJson? (text parts) = .error (.config .malformed) :=
    hrefused parts ⟨[], objectText parts, ['\n']⟩ hparts hkeys rfl ⟨hnone, hline⟩
  exact ⟨hread, hrefuse (hobject hspeed) (.inl hunknown),
    hrefuse (hobject htrace) (.inr ⟨trace, trace, _, .refl _, htrace.key, htrace.key⟩),
    haccepted _ _ hread⟩

end Config

end Handheld
