import Handheld.Debug.Wire
import Handheld.Proofs.Json.Printing

/-!
# Messages as lines

A debugger and a console exchange messages over a stream of text, one line for each message.
`Debug.Framed` says what this needs of a form of messages: the text of a message is one line, the
stream can be cut into its lines again, and a line is understood with blanks around it and in every
other text of the same object.

`Debug.Described` is what is shown for a form of messages: its members, their values, and that these
values give the message back.  `Described.framed` does the rest, and the main statement,
`Debug.framing`, is for requests and for responses.
-/

namespace Handheld

/-- Trimming takes off what surrounds a text with other ends. -/
lemma Text.trimBoth_eq {p : Char → Bool} {before after : List Char}
    (hbefore : ∀ c ∈ before, p c = true) (hafter : ∀ c ∈ after, p c = true) {first last : Char}
    (hfirst : ¬ p first = true) (hlast : ¬ p last = true) (middle : List Char) :
    trimBoth p (before ++ (first :: (middle ++ [last]) ++ after)) =
      first :: (middle ++ [last]) := by
  have hreversed : ∀ c ∈ after.reverse, p c = true := fun c hc => hafter c (List.mem_reverse.mp hc)
  have hfront : (before ++ (first :: (middle ++ [last]) ++ after)).dropWhile p =
      first :: (middle ++ [last]) ++ after := by
    rw [List.dropWhile_append_of_pos hbefore, List.cons_append, List.dropWhile_cons_of_neg hfirst]
  have hback : (first :: (middle ++ [last]) ++ after).reverse.dropWhile p =
      (first :: (middle ++ [last])).reverse := by
    rw [List.reverse_append, List.dropWhile_append_of_pos hreversed, List.reverse_cons,
      List.reverse_append, List.reverse_singleton, List.append_assoc, List.singleton_append,
      List.dropWhile_cons_of_neg hlast]
  rw [trimBoth, hfront, hback, List.reverse_reverse]

namespace Debug

open Json

/-- A text with blanks around it. -/
def Padded (piece : List Char) (line : String) : Prop :=
  ∃ before after, (∀ c ∈ before, Text.isBlank c = true) ∧ (∀ c ∈ after, Text.isBlank c = true) ∧
    line = String.ofList (before ++ (piece ++ after))

/-- Messages that are exchanged as lines of text, each as an object with certain members. -/
structure Framed {α : Type} (toLine : α → String) (ofLine? : String → Option α)
    (members : α → List (String × String)) : Prop where
  /-- The text of a message is an object. -/
  encoding : ∀ a, toLine a = endLine (object (members a))
  /-- It is one line. -/
  line : ∀ a, ∃ body, (toLine a).toList = body ++ ['\n'] ∧ '\n' ∉ body
  /-- The lines of several messages can be told apart and understood. -/
  stream : ∀ messages : List α, ∃ pieces,
    (String.join (messages.map toLine)).toList.splitOn '\n' = pieces ++ [[]] ∧
    ∀ lines, List.Forall₂ Padded pieces lines → lines.map ofLine? = messages.map some
  /-- A message is understood in every other text of its object. -/
  rewriting : ∀ a text, Rewrites (members a) text →
    ∀ line, Padded text line → ofLine? line = some a

/-- Messages that are understood by the values of their members. -/
structure Described {α : Type} (toLine : α → String) (ofLine? : String → Option α)
    (members : α → List (String × String)) (values : α → List (String × Value)) : Prop where
  encoding : ∀ a, toLine a = endLine (object (members a))
  nonempty : ∀ a, members a ≠ []
  /-- No value is on several lines. -/
  line : ∀ a, ∀ member ∈ members a, '\n' ∉ member.2.toList
  stands : ∀ a, List.Forall₂ Stands ((members a).map printed) (values a)
  /-- A line is understood by the members of its object, in any order and among others. -/
  understood : ∀ a line (found others : List (String × Value)),
    valueOfLine? line = some (.object (found.map fun part => (some part.1, part.2))) →
    found.Perm (values a ++ others) → (∀ other ∈ others, other.1 ∉ (members a).map Prod.fst) →
    ofLine? line = some a

/-- A text of an object, with blanks around it, is read as its value. -/
lemma valueOfLine?_of_padded {parts : List Member} {v : Value} {line : String}
    (h : Reads (objectText parts) v) (hline : Padded (objectText parts) line) :
    valueOfLine? line = some v := by
  obtain ⟨before, after, hbefore, hafter, rfl⟩ := hline
  have hfirst : ¬ Text.isBlank '\x7b' = true := by decide
  have hlast : ¬ Text.isBlank '\x7d' = true := by decide
  have htrim : Text.trimBoth Text.isBlank (before ++ (objectText parts ++ after)) =
      objectText parts :=
    Text.trimBoth_eq hbefore hafter hfirst hlast (commas (parts.map Member.full))
  have hread : Value.read? (objectText parts) = some v := by
    have hnone : Blanks [] := nofun
    simpa using h.read? hnone hnone
  rw [valueOfLine?, String.toList_ofList, htrim, hread]

namespace Described

variable {α : Type} {toLine : α → String} {ofLine? : String → Option α}
  {members : α → List (String × String)} {values : α → List (String × Value)}

/-- The text of a message without its line end. -/
lemma line_eq (h : Described toLine ofLine? members values) (a : α) :
    (toLine a).toList = (object (members a)).toList ++ ['\n'] ∧
      '\n' ∉ (object (members a)).toList := by
  rw [h.encoding, endLine, String.toList_append]
  exact ⟨rfl, newline_notMem_object (h.line a)⟩

/-- A message is understood in every other text of its object. -/
lemma ofLine?_of_rewrites (h : Described toLine ofLine? members values) (a : α)
    {text : List Char} (htext : Rewrites (members a) text) {line : String}
    (hline : Padded text line) : ofLine? line = some a := by
  obtain ⟨found, others, hreads, hperm, hothers⟩ := htext.reads (h.nonempty a) (h.stands a)
  obtain ⟨parts, extra⟩ := htext
  exact h.understood a line found others (valueOfLine?_of_padded hreads hline) hperm hothers

/-- A stream is cut into the texts of its messages. -/
lemma splitOn_join (h : Described toLine ofLine? members values) (messages : List α) :
    (String.join (messages.map toLine)).toList.splitOn '\n' =
      messages.map (fun a => (object (members a)).toList) ++ [[]] := by
  induction messages with
  | nil => rfl
  | cons a messages ih =>
    obtain ⟨hline, hnewline⟩ := h.line_eq a
    rw [String.toList_join] at ih ⊢
    rw [List.map_cons, List.flatMap_cons, hline, List.append_assoc, List.singleton_append,
      List.splitOn_append_cons_self_of_not_mem hnewline, ih, List.map_cons, List.cons_append]

/-- Messages that are understood by their members are exchanged as lines. -/
theorem framed (h : Described toLine ofLine? members values) : Framed toLine ofLine? members where
  encoding := h.encoding
  line a := ⟨_, h.line_eq a⟩
  stream messages := by
    refine ⟨_, h.splitOn_join messages, fun lines hlines => ?_⟩
    rw [List.forall₂_map_left_iff] at hlines
    induction hlines with
    | nil => rfl
    | @cons a line messages lines hline _ ih =>
      rw [List.map_cons, List.map_cons, h.ofLine?_of_rewrites a (rewrites_object _) hline, ih]
  rewriting a text htext line hline := h.ofLine?_of_rewrites a htext hline

end Described

/-! ### Requests and responses -/

/-- A status is read from its name. -/
lemma Status.ofValue?_name (s : Status) : ofValue? (.string (some s.name)) = some s := by
  cases s <;> rfl

/-- An action is read from its name. -/
lemma Action.ofValue?_name (a : Action) : ofValue? (.string (some a.name)) = some a := by
  cases a <;> rfl

/-- A printed member stands for its key and for what its value is read as. -/
lemma stands_printed (key : String) {text : String} {v : Value} (h : Reads text.toList v) :
    Stands (printed (key, text)) (key, v) := by
  constructor
  · simp only [printed]
    exact (spells_quote key).isToken
  · simp only [printed]
    exact h

namespace Request

/-- The members of a request. -/
def members (r : Request) : List (String × String) := [
  ("kind", quote r.action.name),
  ("id", natural r.id.toNat),
  ("address", natural r.address.toNat),
  ("data", natural r.data.toNat)]

/-- The values of the members. -/
def values (r : Request) : List (String × Value) := [
  ("kind", .string (some r.action.name)),
  ("id", .number (some r.id.toNat)),
  ("address", .number (some r.address.toNat)),
  ("data", .number (some r.data.toNat))]

/-- A request is understood by its members. -/
lemma described : Described toLine ofLine? members values where
  encoding _ := rfl
  nonempty _ := List.cons_ne_nil _ _
  line r := by
    simp only [members, List.forall_mem_cons]
    exact ⟨newline_notMem_quote _, newline_notMem_natural _, newline_notMem_natural _,
      newline_notMem_natural _, nofun⟩
  stands r := .cons (stands_printed _ (reads_quote _)) (.cons (stands_printed _ (reads_natural _))
    (.cons (stands_printed _ (reads_natural _)) (.cons (stands_printed _ (reads_natural _)) .nil)))
  understood r line found others hline hperm hothers := by
    have hkind : required? found "kind" Action.ofValue? =
        Action.ofValue? (.string (some r.action.name)) :=
      required?_of_perm hperm hothers (by simp [members]) rfl _
    have hid : required? found "id" (·.word?) = (Value.number (some r.id.toNat)).word? :=
      required?_of_perm hperm hothers (by simp [members]) rfl _
    have haddress : required? found "address" (·.word?) =
        (Value.number (some r.address.toNat)).word? :=
      required?_of_perm hperm hothers (by simp [members]) rfl _
    have hdata : required? found "data" (·.word?) = (Value.number (some r.data.toNat)).word? :=
      required?_of_perm hperm hothers (by simp [members]) rfl _
    calc ofLine? line
        = ofMembers? found := by
          rw [ofLine?, hline, Option.bind_some, ofValue?, members?_map_some, Option.bind_some]
          nofun
      _ = some r := by
          rw [ofMembers?, hkind, hid, haddress, hdata, Action.ofValue?_name, word?_toNat,
            word?_toNat, word?_toNat]
          rfl

end Request

namespace Response

/-- The members of a response. -/
def members (r : Response) : List (String × String) := [
  ("id", natural r.id.toNat),
  ("status", quote r.status.name),
  ("data", natural r.data.toNat)]

/-- The values of the members. -/
def values (r : Response) : List (String × Value) := [
  ("id", .number (some r.id.toNat)),
  ("status", .string (some r.status.name)),
  ("data", .number (some r.data.toNat))]

/-- A response is understood by its members. -/
lemma described : Described toLine ofLine? members values where
  encoding _ := rfl
  nonempty _ := List.cons_ne_nil _ _
  line r := by
    simp only [members, List.forall_mem_cons]
    exact ⟨newline_notMem_natural _, newline_notMem_quote _, newline_notMem_natural _, nofun⟩
  stands r := .cons (stands_printed _ (reads_natural _)) (.cons (stands_printed _ (reads_quote _))
    (.cons (stands_printed _ (reads_natural _)) .nil))
  understood r line found others hline hperm hothers := by
    have hid : required? found "id" (·.word?) = (Value.number (some r.id.toNat)).word? :=
      required?_of_perm hperm hothers (by simp [members]) rfl _
    have hstatus : required? found "status" Status.ofValue? =
        Status.ofValue? (.string (some r.status.name)) :=
      required?_of_perm hperm hothers (by simp [members]) rfl _
    have hdata : required? found "data" (·.word?) = (Value.number (some r.data.toNat)).word? :=
      required?_of_perm hperm hothers (by simp [members]) rfl _
    calc ofLine? line
        = ofMembers? found := by
          rw [ofLine?, hline, Option.bind_some, ofValue?, members?_map_some, Option.bind_some]
          nofun
      _ = some r := by
          rw [ofMembers?, hid, hstatus, hdata, word?_toNat, Status.ofValue?_name, word?_toNat]
          rfl

end Response

/-- Requests and responses are exchanged as lines: the text of each is one line, a stream is cut
into the messages it was made of, and a line may have blanks between its tokens and around it, its
members in another order, and more members under other names. -/
theorem framing : Framed Request.toLine Request.ofLine? Request.members ∧
    Framed Response.toLine Response.ofLine? Response.members :=
  ⟨Request.described.framed, Response.described.framed⟩

/-- A response in another order, with blanks and a note. -/
example : Response.ofLine?
    " \x7b\"data\": 7, \"note\":[null,\x7b\"a\":-1.5e3\x7d], \"status\":\"success\",\"id\":1\x7d" =
      some (.ok 1 7) := by
  cbv

end Debug

end Handheld
