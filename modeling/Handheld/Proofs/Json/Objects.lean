import Handheld.Json.Member
import Handheld.Proofs.Json.Reading
import Mathlib.Data.List.Perm.Basic

/-!
# Objects and their members

`Json.IsObject` says that some members make up an object of the grammar, whatever their keys and
values are.  `Json.Writes` is the relation between keys with the texts of their values and the texts
of an object with these members: the keys are spelled in any way, and there are blanks between the
tokens.

The main statements are `IsObject.exists_reads`, that an object is read with the names that its keys
spell, and `Writes.reads`, that it is read with the values of the members.  The rest is about
looking for members by their keys, which does not depend on their order.
-/

namespace Handheld

namespace Json

/-! ### Objects of the grammar -/

/-- The members of an object of the grammar. -/
structure IsObject (parts : List Member) : Prop where
  blank : ∀ m ∈ parts, m.Blank
  keys : ∀ m ∈ parts, ∃ body units, m.key.text = quoted body ∧ Spelled body units
  values : ∀ m ∈ parts, IsJson m.value.text

/-- The name that the key of a member spells, if it spells one. -/
def Member.Named (m : Member) (name? : Option String) : Prop :=
  ∀ name, name? = some name ↔ Spells m.key.text name

/-- Two of the members have the same name. -/
def Repeated (parts : List Member) : Prop :=
  ∃ m m' name, [m, m'].Sublist parts ∧ Spells m.key.text name ∧ Spells m'.key.text name

/-- An object of the grammar is read with the names that its keys spell. -/
theorem IsObject.exists_reads {parts : List Member} (h : IsObject parts) (hne : parts ≠ []) :
    ∃ found : Members, Reads (objectText parts) (.object found) ∧
      List.Forall₂ (fun m part => m.Named part.1) parts found := by
  have hread : ∀ m ∈ parts, ∃ part : Option String × Value, m.Reads part ∧ m.Named part.1 := by
    intro m hm
    obtain ⟨body, units, hkey, hbody⟩ := h.keys m hm
    obtain ⟨k, htoken, hname⟩ := hbody.exists_isToken
    obtain ⟨v, hv⟩ := (h.values m hm).exists_reads
    rw [← hkey] at htoken hname
    exact ⟨(k, v), ⟨h.blank m hm, htoken, hv⟩, hname⟩
  obtain ⟨found, hfound⟩ := exists_forall₂ hread
  exact ⟨found, reads_object (hfound.imp fun _ _ hm => hm.1) hne, hfound.imp fun _ _ hm => hm.2⟩

/-- What is related to some of the elements can be chosen among what is related to all of them. -/
lemma exists_sublist_forall₂ {α β : Type} {R : α → β → Prop} {l₁ l₂ : List α} {l₂' : List β}
    (hsub : l₁.Sublist l₂) (h : List.Forall₂ R l₂ l₂') :
    ∃ l₁', l₁'.Sublist l₂' ∧ List.Forall₂ R l₁ l₁' := by
  induction hsub generalizing l₂' with
  | slnil =>
    cases h
    exact ⟨[], .slnil, .nil⟩
  | cons a _ ih =>
    cases h with
    | cons ha h =>
      obtain ⟨l₁', hsub', h'⟩ := ih h
      exact ⟨l₁', hsub'.cons _, h'⟩
  | cons_cons a _ ih =>
    cases h with
    | cons ha h =>
      obtain ⟨l₁', hsub', h'⟩ := ih h
      exact ⟨_, hsub'.cons_cons _, .cons ha h'⟩

/-- To each of the elements something is related. -/
lemma exists_mem_forall₂ {α β : Type} {R : α → β → Prop} {l : List α} {l' : List β} {a : α}
    (ha : a ∈ l) (h : List.Forall₂ R l l') : ∃ b ∈ l', R a b := by
  obtain ⟨one, hone, hrelated⟩ := exists_sublist_forall₂ (List.singleton_sublist.mpr ha) h
  cases hrelated with
  | @cons _ b _ _ hb _ => exact ⟨b, hone.subset List.mem_cons_self, hb⟩

/-- Where no name is read twice, no two members have the same. -/
lemma not_repeated_of_nodup {parts : List Member} {found : List (String × Value)}
    (h : List.Forall₂ (fun m part => m.Named (some part.1)) parts found)
    (hnodup : (found.map Prod.fst).Nodup) : ¬ Repeated parts := by
  rintro ⟨m, m', name, hsub, hname, hname'⟩
  obtain ⟨two, htwo, hparts⟩ := exists_sublist_forall₂ hsub h
  cases hparts with
  | @cons _ part _ _ hpart hrest =>
    cases hrest with
    | @cons _ part' _ _ hpart' hnil =>
      cases hnil
      have hfirst : part.1 = name := Option.some.inj ((hpart name).mpr hname)
      have hsecond : part'.1 = name := Option.some.inj ((hpart' name).mpr hname')
      have hne := hnodup.sublist (htwo.map Prod.fst)
      simp [hfirst, hsecond] at hne

/-! ### Objects with given members -/

/-- A member has a given key, spelled in any way, and the given text of its value. -/
structure Member.Writes (m : Member) (member : String × String) : Prop where
  blank : m.Blank
  key : Spells m.key.text member.1
  value : m.value.text = member.2.toList

/-- The texts of an object with the given members in this order. -/
inductive Writes : List (String × String) → List Char → Prop
  | empty {blanks : List Char} (hblanks : Blanks blanks) :
      Writes [] ('\x7b' :: (blanks ++ ['\x7d']))
  | object {members : List (String × String)} {parts : List Member} (hne : parts ≠ [])
      (hparts : List.Forall₂ Member.Writes parts members) : Writes members (objectText parts)

/-- Members whose values belong to the grammar make up an object of the grammar. -/
lemma isObject_of_writes {parts : List Member} {members : List (String × String)}
    (h : List.Forall₂ Member.Writes parts members)
    (hvalues : ∀ member ∈ members, IsJson member.2.toList) : IsObject parts := by
  refine ⟨fun m hm => ?_, fun m hm => ?_, fun m hm => ?_⟩
  all_goals obtain ⟨member, hmember, hm⟩ := exists_mem_forall₂ hm h
  · exact hm.blank
  · obtain ⟨body, units, hkey, hbody, -⟩ := hm.key
    exact ⟨body, units, hkey, hbody⟩
  · rw [hm.value]
    exact hvalues member hmember

/-- An object is read with the values of its members. -/
theorem Writes.reads {members : List (String × String)} {text : List Char}
    (h : Writes members text) {values : List (String × Value)}
    (hvalues : List.Forall₂ (fun member part => member.1 = part.1 ∧ Reads member.2.toList part.2)
      members values) :
    Reads text (.object (values.map fun part => (some part.1, part.2))) := by
  cases h with
  | empty hblanks =>
    cases hvalues
    exact reads_emptyObject hblanks
  | @object _ parts hne hparts =>
    refine reads_object ?_ hne
    clear hne
    induction hparts generalizing values with
    | nil =>
      cases hvalues
      exact .nil
    | @cons m member parts members hm _ ih =>
      cases hvalues with
      | @cons _ part _ values hpart hvalues =>
        refine .cons ⟨hm.blank, ?_, ?_⟩ (ih hvalues)
        · simp only [← hpart.1]
          exact hm.key.isToken
        · rw [hm.value]
          exact hpart.2

/-! ### Looking for members -/

section

variable {found values : List (String × Value)}

/-- The members of an object are those of its parts. -/
lemma members?_cons (part : Option String × Value) (found : Members) :
    (Value.object (part :: found)).members? = part.1.bind fun key =>
      (Value.object found).members?.map ((key, part.2) :: ·) := by
  obtain ⟨_ | key, v⟩ := part
  · rfl
  · rw [Value.members?, Value.members?, List.mapM_cons]
    cases List.mapM (fun part : Option String × Value => part.1.map (·, part.2)) found with
    | none => rfl
    | some members => rfl

/-- Keys that have a text are members. -/
lemma members?_map_some (found : List (String × Value)) :
    (Value.object (found.map fun part => (some part.1, part.2))).members? = some found := by
  induction found with
  | nil => rfl
  | cons part found ih => rw [List.map_cons, members?_cons, ih, Option.bind_some, Option.map_some]

/-- Only keys that have a text are members. -/
lemma eq_map_of_members? {found : Members} {members : List (String × Value)}
    (h : (Value.object found).members? = some members) :
    found = members.map fun part => (some part.1, part.2) := by
  induction found generalizing members with
  | nil =>
    obtain rfl : [] = members := Option.some.inj h
    rfl
  | cons part found ih =>
    rw [members?_cons] at h
    obtain ⟨key, hkey, hmembers⟩ := Option.bind_eq_some_iff.mp h
    obtain ⟨members, hfound, rfl⟩ := Option.map_eq_some_iff.mp hmembers
    rw [List.map_cons, ← ih hfound, ← hkey]

/-- What belongs to a key depends on the order no more than the members do. -/
lemma valuesOf_perm (h : found.Perm values) (key : String) :
    (valuesOf found key).Perm (valuesOf values key) :=
  (h.filter _).map _

/-- The number of values of a key. -/
lemma length_valuesOf (members : List (String × Value)) (key : String) :
    (valuesOf members key).length = (members.map Prod.fst).count key := by
  rw [valuesOf, List.length_map, List.count, List.countP_map, List.countP_eq_length_filter]
  rfl

/-- More members under other names make no difference, nor does the order, where a key occurs once.
-/
lemma required?_of_perm {α : Type} {found others : List (String × Value)}
    (hperm : found.Perm (values ++ others)) {keys : List String}
    (hothers : ∀ other ∈ others, other.1 ∉ keys) {key : String} (hkey : key ∈ keys) {v : Value}
    (hvalue : valuesOf values key = [v]) (read? : Value → Option α) :
    required? found key read? = read? v := by
  have hnone : valuesOf others key = [] := by
    rw [valuesOf, List.map_eq_nil_iff, List.filter_eq_nil_iff]
    intro other hother heq
    exact hothers other hother (beq_iff_eq.mp heq ▸ hkey)
  have hvalues := valuesOf_perm hperm key
  have hsplit : valuesOf (values ++ others) key = valuesOf values key ++ valuesOf others key := by
    simp [valuesOf]
  rw [hsplit, hvalue, hnone, List.append_nil, List.perm_singleton] at hvalues
  rw [required?, hvalues]

/-- A member that is there has its value, and one that is missing the default. -/
lemma optional?_of_perm {α : Type} (hperm : found.Perm values) {key : String} {a? : Option α}
    {value : α → Value} (hvalue : valuesOf values key = (a?.map value).toList)
    (read? : Value → Option α) (hread : ∀ a, read? (value a) = some a) (default : α) :
    optional? found key read? default = some (a?.getD default) := by
  have hvalues := valuesOf_perm hperm key
  rw [hvalue] at hvalues
  cases a? with
  | none =>
    rw [optional?, hvalues.eq_nil]
    rfl
  | some a =>
    rw [optional?, List.perm_singleton.mp hvalues]
    exact hread a

/-- A key does not occur twice, if it is asked for. -/
lemma length_valuesOf_le {α : Type} {key : String} {read? : Value → Option α} {default a : α}
    (h : optional? found key read? default = some a) : (valuesOf found key).length ≤ 1 := by
  rw [optional?] at h
  split at h
  case h_1 hvalues => simp [hvalues]
  case h_2 hvalues => simp [hvalues]
  case h_3 => cases h

end

end Json

end Handheld
