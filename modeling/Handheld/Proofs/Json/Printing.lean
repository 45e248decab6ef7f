import Handheld.Json.Printer
import Handheld.Proofs.Json.Objects

/-!
# Printed JSON text

What is printed belongs to the grammar, and is read as what it stands for: a string as its text
(`spells_quote`), a natural number as itself (`reads_natural`), and an object as its members.

`Json.Rewrites` is the relation between the members of an object and all texts of an object that has
the same members in any order, perhaps more of them, and blanks between the tokens.  The main
statement is `Rewrites.reads`: such a text is read as an object with the values of the members and
those of the additional ones.
-/

namespace Handheld

namespace Json

/-! ### Strings -/

/-- A digit that is printed has its value. -/
lemma lowerDigit_mem {n : Nat} (h : n < 16) : (Hex.lowerDigit n, n) ∈ hexDigits := by
  have hall : ∀ n, n < 16 → (Hex.lowerDigit n, n) ∈ hexDigits := by decide
  exact hall n h

/-- A character is spelled by its escape. -/
lemma Spelled.escape {cs : List Char} {units : List Nat} (h : Spelled cs units) (c : Char) :
    Spelled (escape c ++ cs) (c.toNat :: units) := by
  unfold Json.escape
  split
  case h_8 _ hquote hbackslash _ _ _ _ _ =>
    split
    · have hdigits : (Hex.lower 2 c.toNat).toList =
          [Hex.lowerDigit (c.toNat / 16 % 16), Hex.lowerDigit (c.toNat % 16)] :=
        String.toList_ofList
      rename_i hcontrol
      have hlt : c.toNat < 32 := hcontrol
      have hzero : ('0', 0) ∈ hexDigits := by decide
      have hunit := h.unit hzero hzero (lowerDigit_mem (Nat.mod_lt (c.toNat / 16) (by decide)))
        (lowerDigit_mem (Nat.mod_lt c.toNat (by decide)))
      have hvalue : 4096 * 0 + 256 * 0 + 16 * (c.toNat / 16 % 16) + c.toNat % 16 = c.toNat := by
        omega
      rw [hvalue] at hunit
      rw [hdigits]
      exact hunit
    · rename_i hvisible
      exact .plain (Char.not_lt.mp hvisible) hquote hbackslash h
  all_goals exact .letter (by decide) h

/-- A text is spelled by the escapes of its characters. -/
lemma spelled_flatMap (cs : List Char) : Spelled (cs.flatMap escape) (cs.map Char.toNat) := by
  induction cs with
  | nil => exact .nil
  | cons c cs ih =>
    rw [List.flatMap_cons, List.map_cons]
    exact ih.escape c

/-- Every character has its own number. -/
lemma units_map (cs : List Char) : Units (cs.map Char.toNat) cs := by
  induction cs with
  | nil => exact .nil
  | cons c cs ih => exact .self ih

/-- A text that is printed with quotes. -/
lemma toList_quote (s : String) : (quote s).toList = quoted (s.toList.flatMap escape) :=
  String.toList_ofList

/-- A text that is printed with quotes stands for itself. -/
theorem spells_quote (s : String) : Spells (quote s).toList s :=
  ⟨_, _, toList_quote s, spelled_flatMap _, units_map _⟩

/-- A text that is printed with quotes is read as itself. -/
lemma reads_quote (s : String) : Reads (quote s).toList (.string (some s)) :=
  reads_of_token (fun rest _ => (spells_quote s).isToken rest) fun _ => rfl

/-- A string has no control characters. -/
lemma Spelled.visible {body : List Char} {units : List Nat} (h : Spelled body units) :
    ∀ c ∈ body, ' ' ≤ c := by
  have hletters : ∀ p ∈ letters, ' ' ≤ p.1 := by decide
  have hdigits : ∀ p ∈ hexDigits, ' ' ≤ p.1 := by decide
  induction h with
  | nil => exact fun c hc => absurd hc List.not_mem_nil
  | plain hcontrol _ _ _ ih => exact List.forall_mem_cons.mpr ⟨hcontrol, ih⟩
  | letter hletter _ ih =>
    simp only [List.forall_mem_cons]
    exact ⟨by decide, hletters _ hletter, ih⟩
  | unit ha hb hc hd _ ih =>
    simp only [List.forall_mem_cons]
    exact ⟨by decide, by decide, hdigits _ ha, hdigits _ hb, hdigits _ hc, hdigits _ hd, ih⟩

/-- A text that is printed with quotes is on one line. -/
lemma newline_notMem_quote (s : String) : '\n' ∉ (quote s).toList := by
  rw [toList_quote, quoted, List.mem_cons, List.mem_append, List.mem_singleton]
  rintro (hquote | hbody | hquote)
  · cases hquote
  · exact absurd ((spelled_flatMap _).visible _ hbody) (by decide)
  · cases hquote

/-! ### Numbers and truth values -/

/-- A natural number is printed with its digits. -/
lemma toList_natural (n : Nat) : (natural n).toList = Nat.toDigits 10 n := Nat.toList_repr

/-- A natural number is read as itself. -/
theorem reads_natural (n : Nat) : Reads (natural n).toList (.number (some n)) := by
  rw [toList_natural]
  exact reads_of_token (fun _ hrest => nextToken_toDigits n hrest) fun _ => rfl

/-- A natural number is on one line. -/
lemma newline_notMem_natural (n : Nat) : '\n' ∉ (natural n).toList := by
  rw [toList_natural]
  intro h
  have hdigit : '\n'.isDigit = true := Nat.isDigit_of_mem_toDigits (by decide) (by decide) h
  cases hdigit

/-- The number of a word is understood as this word. -/
lemma word?_toNat (n : UInt32) : (Value.number (some n.toNat)).word? = some n := by
  rw [Value.word?, if_pos n.toNat_lt_size, UInt32.ofNat_toNat]

/-- A truth value is read as itself. -/
lemma reads_bool (b : Bool) : Reads (bool b).toList (.bool b) := by
  cases b
  · exact reads_of_token (fun _ _ => rfl) fun _ => rfl
  · exact reads_of_token (fun _ _ => rfl) fun _ => rfl

/-! ### Objects -/

/-- A member without blanks. -/
def Member.compact (member : String × String) : Member :=
  ⟨⟨[], (quote member.1).toList, []⟩, ⟨[], member.2.toList, []⟩⟩

/-- An object is printed without blanks. -/
lemma toList_object (members : List (String × String)) :
    (object members).toList = objectText (members.map Member.compact) := by
  have hmember (member : String × String) :
      (quote member.1 ++ ":" ++ member.2).toList = (Member.compact member).full := by
    simp [Member.full, Member.compact, Item.full]
  have htexts (f : String × String → String)
      (hf : ∀ member, (f member).toList = (Member.compact member).full) :
      (members.map f).map String.toList = (members.map Member.compact).map Member.full := by
    rw [List.map_map, List.map_map]
    exact List.map_congr_left fun member _ => hf member
  rw [object, String.toList_append, String.toList_append, String.toList_intercalate,
    htexts _ hmember]
  rfl

/-- The printed object has the members that it was printed with. -/
lemma writes_object (members : List (String × String)) :
    Writes members (object members).toList := by
  rw [toList_object]
  cases members with
  | nil =>
    have hblanks : Blanks [] := nofun
    exact .empty hblanks
  | cons member members =>
    refine .object (List.cons_ne_nil _ _) ?_
    rw [List.forall₂_map_left_iff, List.forall₂_same]
    intro member _
    refine ⟨⟨⟨nofun, nofun⟩, ⟨nofun, nofun⟩⟩, ?_, ?_⟩
    · simp only [Member.compact]
      exact spells_quote member.1
    · simp only [Member.compact]

/-- What is between commas is a comma or belongs to one of the texts. -/
lemma mem_commas {c : Char} {texts : List (List Char)} (h : c ∈ commas texts) :
    c = ',' ∨ ∃ cs ∈ texts, c ∈ cs := by
  induction texts with
  | nil => cases h
  | cons cs texts ih =>
    cases texts with
    | nil =>
      rw [commas, List.intercalate_singleton] at h
      exact .inr ⟨cs, List.mem_cons_self, h⟩
    | cons cs' texts =>
      rw [commas, List.intercalate_cons_cons, List.append_assoc, List.mem_append,
        List.singleton_append, List.mem_cons] at h
      rcases h with hfirst | rfl | hrest
      · exact .inr ⟨cs, List.mem_cons_self, hfirst⟩
      · exact .inl rfl
      · rcases ih hrest with rfl | ⟨t, ht, hc⟩
        · exact .inl rfl
        · exact .inr ⟨t, List.mem_cons_of_mem _ ht, hc⟩

/-- An object is on one line, if the values of its members are. -/
lemma newline_notMem_object {members : List (String × String)}
    (h : ∀ member ∈ members, '\n' ∉ member.2.toList) : '\n' ∉ (object members).toList := by
  rw [toList_object, objectText, List.mem_cons, List.mem_append, List.mem_singleton]
  rintro (hbracket | hmembers | hbracket)
  · cases hbracket
  · rcases mem_commas hmembers with hcomma | ⟨cs, hcs, hnewline⟩
    · cases hcomma
    · rw [List.map_map, List.mem_map] at hcs
      obtain ⟨member, hmember, rfl⟩ := hcs
      have hparts : '\n' ∈ (quote member.1).toList ++ ':' :: member.2.toList := by
        simpa [Member.full, Member.compact, Item.full] using hnewline
      rw [List.mem_append, List.mem_cons] at hparts
      rcases hparts with hkey | hcolon | hvalue
      · exact newline_notMem_quote _ hkey
      · cases hcolon
      · exact h member hmember hvalue
  · cases hbracket

/-! ### Other texts of the same object -/

/-- The texts of the key and of the value of a printed member. -/
def printed (member : String × String) : List Char × List Char :=
  ((quote member.1).toList, member.2.toList)

/-- The texts of an object with the given members, in any order, with blanks between the tokens, and
perhaps with more members under other names. -/
inductive Rewrites (members : List (String × String)) : List Char → Prop
  | mk (parts : List Member) (extra : List (List Char × List Char))
      (hblank : ∀ m ∈ parts, m.Blank)
      (hparts : (parts.map fun m => (m.key.text, m.value.text)).Perm
        (members.map printed ++ extra))
      (hextra : ∀ e ∈ extra, IsJson e.2 ∧
        ∃ name, Spells e.1 name ∧ name ∉ members.map Prod.fst) :
      Rewrites members (objectText parts)

variable {members : List (String × String)} {values : List (String × Value)}

/-- The printed object is one of these texts. -/
lemma rewrites_object (members : List (String × String)) :
    Rewrites members (object members).toList := by
  rw [toList_object]
  refine .mk _ [] (fun m hm => ?_) ?_ (fun e he => absurd he List.not_mem_nil)
  · obtain ⟨member, -, rfl⟩ := List.mem_map.mp hm
    exact ⟨⟨nofun, nofun⟩, ⟨nofun, nofun⟩⟩
  · rw [List.map_map, List.append_nil]
    refine .of_eq (List.map_congr_left fun member _ => ?_)
    simp only [Function.comp_apply, Member.compact, printed]

/-- The texts of a key and of a value, and what they are read as. -/
structure Stands (texts : List Char × List Char) (part : String × Value) : Prop where
  key : IsToken texts.1 (.string (some part.1))
  value : Reads texts.2 part.2

/-- A text that rewrites an object is read as an object with the values of the members, and those of
other ones. -/
theorem Rewrites.reads {text : List Char} (h : Rewrites members text) (hne : members ≠ [])
    (hvalues : List.Forall₂ Stands (members.map printed) values) :
    ∃ found others : List (String × Value),
      Reads text (.object (found.map fun part => (some part.1, part.2))) ∧
      found.Perm (values ++ others) ∧ ∀ other ∈ others, other.1 ∉ members.map Prod.fst := by
  obtain ⟨parts, extra, hblank, hparts, hextra⟩ := h
  have hother : ∀ e ∈ extra, ∃ part : String × Value,
      part.1 ∉ members.map Prod.fst ∧ Stands e part := by
    intro e he
    obtain ⟨hvalue, name, hname, hnew⟩ := hextra e he
    obtain ⟨v, hv⟩ := hvalue.exists_reads
    exact ⟨(name, v), hnew, hname.isToken, hv⟩
  obtain ⟨others, hothers⟩ := exists_forall₂ hother
  obtain ⟨hnew, hstand⟩ := (List.forall₂_and_left others extra).mp hothers.flip
  obtain ⟨found, hfound, hperm⟩ :=
    List.perm_comp_forall₂ hparts (List.rel_append hvalues hstand.flip)
  rw [List.forall₂_map_left_iff] at hfound
  have hmembers : List.Forall₂ Member.Reads parts
      (found.map fun part => (some part.1, part.2)) := by
    rw [List.forall₂_map_right_iff]
    refine ((List.forall₂_and_left parts found).mpr ⟨hblank, hfound⟩).imp fun m part hm => ?_
    exact ⟨hm.1, hm.2.key, hm.2.value⟩
  have hsome : parts ≠ [] := by
    rintro rfl
    cases members with
    | nil => exact hne rfl
    | cons member members => exact List.cons_ne_nil _ _ hparts.symm.eq_nil
  exact ⟨found, others, reads_object hmembers hsome, hperm, hnew⟩

end Json

end Handheld
