import Handheld.Json.Value
import Handheld.Proofs.Json.Tokens
import Mathlib.Data.List.Forall2

/-!
# Reading JSON text

Every text of the grammar is read.  `Json.Reads` says that a text is read as a value wherever a
value may come, and that the reader then goes on behind it; so it is shown for one form of values
after another, from single tokens (`reads_of_token`) to arrays and objects (`reads_array`,
`reads_object`).

The main statements are `IsJson.exists_reads`, that every value of the grammar is read as some
value, and `Reads.read?`, that a text which consists of a value and blanks is read as this value.
-/

namespace Handheld

namespace Json

variable {cs rest : List Char} {r r' : Reader} {t : Token} {stack : List Frame} {v : Value}

/-! ### The reader -/

/-- The reader looks at the next token. -/
lemma run_eq (r : Reader) (cs : List Char) : r.run cs =
    match nextToken cs with
    | none => none
    | some none => r.result?
    | some (some (t, rest)) => (r.step t).bind (·.run rest) := by
  rw [Reader.run]
  split
  · rename_i h
    rw [h]
  · rename_i h
    rw [h]
  · rename_i t rest h
    rw [h]
    simp only
    cases r.step t with
    | none => rfl
    | some r' => rfl

/-- The reader takes a token. -/
lemma run_of_token (htoken : nextToken cs = some (some (t, rest))) (hstep : r.step t = some r') :
    r.run cs = r'.run rest := by
  rw [run_eq, htoken]
  simp only [hstep, Option.bind_some]

/-- Readers that make the same of the next token go on in the same way. -/
lemma run_congr (htoken : nextToken cs = some (some (t, rest))) (hstep : r.step t = r'.step t) :
    r.run cs = r'.run cs := by
  rw [run_eq, run_eq, htoken]
  simp only [hstep]

/-- The reader passes over blanks. -/
lemma run_blanks {blanks : List Char} (h : Blanks blanks) (r : Reader) (cs : List Char) :
    r.run (blanks ++ cs) = r.run cs := by
  rw [run_eq, run_eq r cs, h.nextToken]

/-! ### Values -/

/-- A text is read as a value, wherever one may come, if it does not go on. -/
structure Reads (cs : List Char) (v : Value) : Prop where
  /-- It begins with a token, which does not close an array. -/
  token : ∀ rest, Apart rest →
    ∃ t rest', nextToken (cs ++ rest) = some (some (t, rest')) ∧ t ≠ .closeArray
  run : ∀ stack rest, Apart rest →
    (Reader.value stack).run (cs ++ rest) = (Reader.after v stack).run rest

/-- A text that consists of a value and blanks is read as this value. -/
theorem Reads.read? (h : Reads cs v) {before after : List Char} (hbefore : Blanks before)
    (hafter : Blanks after) : Value.read? (before ++ (cs ++ after)) = some v := by
  have hapart : Apart after := by
    rw [← List.append_nil after]
    exact hafter.apart nofun
  rw [Value.read?, run_blanks hbefore, h.run _ _ hapart, run_eq, hafter.nextToken_self]
  rfl

/-- A value of one token is read. -/
theorem reads_of_token
    (htoken : ∀ rest, Apart rest → nextToken (cs ++ rest) = some (some (t, rest)))
    (hbegin : ∀ stack, Reader.begin stack t = some (.after v stack)) : Reads cs v where
  token rest hrest := by
    refine ⟨t, rest, htoken rest hrest, ?_⟩
    rintro rfl
    cases hbegin []
  run stack rest hrest := run_of_token (htoken rest hrest) (hbegin stack)

/-- A value with blanks around it is read. -/
lemma Reads.run_full {i : Item} (h : Reads i.text v) (hblank : i.Blank) (stack : List Frame)
    (rest : List Char) (hrest : Apart rest) :
    (Reader.value stack).run (i.full ++ rest) = (Reader.after v stack).run rest := by
  rw [Item.full, List.append_assoc, List.append_assoc, run_blanks hblank.before,
    h.run _ _ (hblank.after.apart hrest), run_blanks hblank.after]

/-! ### Parts with commas between them -/

/-- What may come behind a part. -/
lemma apart_of_punctuation {c : Char} (h : c = ',' ∨ c = ':' ∨ c = ']' ∨ c = '\x7d')
    (rest : List Char) : Apart (c :: rest) := by
  intro d hd
  obtain rfl : c = d := by simpa using hd
  rcases h with rfl | rfl | rfl | rfl
  all_goals decide

/-- Behind the first part comes a comma, or what closes the whole. -/
lemma commas_cons (cs : List Char) (texts : List (List Char)) (close : Char)
    (hclose : close = ']' ∨ close = '\x7d') (rest : List Char) : ∃ tail,
    commas (cs :: texts) ++ close :: rest = cs ++ tail ∧ Apart tail ∧
      (texts = [] ∧ tail = close :: rest ∨
        texts ≠ [] ∧ tail = ',' :: (commas texts ++ close :: rest)) := by
  cases texts with
  | nil =>
    refine ⟨close :: rest, ?_, apart_of_punctuation (.inr (.inr hclose)) _, .inl ⟨rfl, rfl⟩⟩
    rw [commas, List.intercalate_singleton]
  | cons cs' texts =>
    refine ⟨_, ?_, apart_of_punctuation (.inl rfl) _, .inr ⟨List.cons_ne_nil _ _, rfl⟩⟩
    simp [commas, List.intercalate_cons_cons]

/-- Parts are read one after another.  The readers are the one in front of a part, after some parts
are done; the one behind a part; and the one behind all of them. -/
lemma run_commas {α : Type} (front : List α → Reader) (behind : α → List α → Reader)
    (finish : List α → Reader) {close : Char} (hclose : close = ']' ∨ close = '\x7d')
    (hcomma : ∀ a done rest, (behind a done).run (',' :: rest) = (front (a :: done)).run rest)
    (hend : ∀ a done rest, (behind a done).run (close :: rest) =
      (finish (a :: done).reverse).run rest)
    {texts : List (List Char)} {parts : List α}
    (h : List.Forall₂ (fun cs a => ∀ done rest, Apart rest →
      (front done).run (cs ++ rest) = (behind a done).run rest) texts parts)
    (hne : texts ≠ []) (done : List α) (rest : List Char) :
    (front done).run (commas texts ++ close :: rest) =
      (finish (done.reverse ++ parts)).run rest := by
  induction h generalizing done with
  | nil => exact absurd rfl hne
  | @cons cs a texts parts hpart hparts ih =>
    obtain ⟨tail, htail, hapart, hrest⟩ := commas_cons cs texts close hclose rest
    rw [htail, hpart _ _ hapart]
    rcases hrest with ⟨rfl, rfl⟩ | ⟨hmore, rfl⟩
    · cases hparts
      rw [hend, List.reverse_cons]
    · rw [hcomma, ih hmore, List.reverse_cons, List.append_assoc, List.singleton_append]

/-! ### Arrays -/

/-- An array may begin with any value. -/
lemma Reads.run_firstItem {i : Item} (h : Reads i.text v) (hblank : i.Blank)
    (stack : List Frame) (hrest : Apart rest) : (Reader.firstItem stack).run (i.full ++ rest) =
      (Reader.value (.array [] :: stack)).run (i.full ++ rest) := by
  obtain ⟨t, rest', htoken, hne⟩ := h.token (i.after ++ rest) (hblank.after.apart hrest)
  rw [Item.full, List.append_assoc, List.append_assoc, run_blanks hblank.before,
    run_blanks hblank.before]
  refine run_congr htoken ?_
  cases t with
  | closeArray => exact absurd rfl hne
  | _ => rfl

/-- An array is read. -/
theorem reads_array {items : List Item} {values : List Value}
    (h : List.Forall₂ (fun i v => i.Blank ∧ Reads i.text v) items values) (hne : items ≠ []) :
    Reads (arrayText items) (.array values) where
  token rest _ := ⟨.openArray, _, rfl, nofun⟩
  run stack rest hrest := by
    have htexts : List.Forall₂ (fun cs v => ∀ done rest, Apart rest →
        (Reader.value (.array done :: stack)).run (cs ++ rest) =
          (Reader.after v (.array done :: stack)).run rest) (items.map Item.full) values := by
      rw [List.forall₂_map_left_iff]
      exact h.imp fun i v hi done rest hrest => hi.2.run_full hi.1 _ rest hrest
    have hitems := run_commas (fun done => .value (.array done :: stack))
      (fun v done => .after v (.array done :: stack)) (fun values => .after (.array values) stack)
      (.inl rfl) (fun _ _ _ => run_of_token rfl rfl) (fun _ _ _ => run_of_token rfl rfl) htexts
      (by simpa using hne) [] rest
    have hfirst : (Reader.firstItem stack).run (commas (items.map Item.full) ++ ']' :: rest) =
        (Reader.value (.array [] :: stack)).run (commas (items.map Item.full) ++ ']' :: rest) := by
      cases h with
      | nil => exact absurd rfl hne
      | @cons i v items values hi hitems =>
        obtain ⟨tail, htail, hapart, -⟩ :=
          commas_cons i.full (items.map Item.full) ']' (.inl rfl) rest
        rw [List.map_cons, htail]
        exact hi.2.run_firstItem hi.1 stack hapart
    calc (Reader.value stack).run (arrayText items ++ rest)
        = (Reader.firstItem stack).run (commas (items.map Item.full) ++ [']'] ++ rest) :=
          run_of_token rfl rfl
      _ = (Reader.firstItem stack).run (commas (items.map Item.full) ++ ']' :: rest) := by
          rw [List.append_assoc, List.singleton_append]
      _ = (Reader.after (.array values) stack).run rest := hfirst.trans hitems

/-- An array without items is read. -/
lemma reads_emptyArray {blanks : List Char} (h : Blanks blanks) :
    Reads ('[' :: (blanks ++ [']'])) (.array []) where
  token rest _ := ⟨.openArray, _, rfl, nofun⟩
  run stack rest _ := by
    calc (Reader.value stack).run ('[' :: (blanks ++ [']']) ++ rest)
        = (Reader.firstItem stack).run (blanks ++ [']'] ++ rest) := run_of_token rfl rfl
      _ = (Reader.firstItem stack).run (']' :: rest) := by
          rw [List.append_assoc, run_blanks h, List.singleton_append]
      _ = (Reader.after (.array []) stack).run rest := run_of_token rfl rfl

/-! ### Objects -/

section

variable {i : Item} {k : Option String}

/-- A key with blanks around it is read, and the colon behind it. -/
lemma run_key (h : IsToken i.text (.string k)) (hblank : i.Blank) (done : Members)
    (stack : List Frame) (rest : List Char) :
    (Reader.key done stack).run (i.full ++ ':' :: rest) =
      (Reader.value (.object done k :: stack)).run rest := by
  calc (Reader.key done stack).run (i.full ++ ':' :: rest)
      = (Reader.key done stack).run (i.text ++ (i.after ++ ':' :: rest)) := by
        rw [Item.full, List.append_assoc, List.append_assoc, run_blanks hblank.before]
    _ = (Reader.colon (.object done k :: stack)).run (i.after ++ ':' :: rest) :=
        run_of_token (h _) rfl
    _ = (Reader.colon (.object done k :: stack)).run (':' :: rest) := run_blanks hblank.after _ _
    _ = (Reader.value (.object done k :: stack)).run rest := run_of_token rfl rfl

/-- An object may begin with any key. -/
lemma run_firstKey (h : IsToken i.text (.string k)) (hblank : i.Blank) (stack : List Frame)
    (rest : List Char) :
    (Reader.firstKey stack).run (i.full ++ rest) = (Reader.key [] stack).run (i.full ++ rest) := by
  rw [Item.full, List.append_assoc, List.append_assoc, run_blanks hblank.before,
    run_blanks hblank.before]
  exact run_congr (h _) rfl

end

/-- A member is read as a key and a value. -/
structure Member.Reads (m : Member) (part : Option String × Value) : Prop where
  blank : m.Blank
  key : IsToken m.key.text (.string part.1)
  value : Json.Reads m.value.text part.2

/-- An object is read. -/
theorem reads_object {members : List Member} {parts : Members}
    (h : List.Forall₂ Member.Reads members parts) (hne : members ≠ []) :
    Reads (objectText members) (.object parts) where
  token rest _ := ⟨.openObject, _, rfl, nofun⟩
  run stack rest hrest := by
    have htexts : List.Forall₂ (fun cs part => ∀ done rest, Apart rest →
        (Reader.key done stack).run (cs ++ rest) =
          (Reader.after part.2 (.object done part.1 :: stack)).run rest)
        (members.map Member.full) parts := by
      rw [List.forall₂_map_left_iff]
      refine h.imp fun m part hm done rest hrest => ?_
      rw [Member.full, List.append_assoc, List.cons_append, run_key hm.key hm.blank.key]
      exact hm.value.run_full hm.blank.value _ rest hrest
    have hmembers := run_commas (fun done => .key done stack)
      (fun part done => .after part.2 (.object done part.1 :: stack))
      (fun parts => .after (.object parts) stack)
      (.inr rfl) (fun _ _ _ => run_of_token rfl rfl) (fun _ _ _ => run_of_token rfl rfl) htexts
      (by simpa using hne) [] rest
    have hfirst : (Reader.firstKey stack).run (commas (members.map Member.full) ++ '\x7d' :: rest) =
        (Reader.key [] stack).run (commas (members.map Member.full) ++ '\x7d' :: rest) := by
      cases h with
      | nil => exact absurd rfl hne
      | @cons m part members parts hm hmembers =>
        obtain ⟨tail, htail, -⟩ :=
          commas_cons m.full (members.map Member.full) '\x7d' (.inr rfl) rest
        rw [List.map_cons, htail, Member.full, List.append_assoc]
        exact run_firstKey hm.key hm.blank.key stack _
    calc (Reader.value stack).run (objectText members ++ rest)
        = (Reader.firstKey stack).run (commas (members.map Member.full) ++ ['\x7d'] ++ rest) :=
          run_of_token rfl rfl
      _ = (Reader.firstKey stack).run (commas (members.map Member.full) ++ '\x7d' :: rest) := by
          rw [List.append_assoc, List.singleton_append]
      _ = (Reader.after (.object parts) stack).run rest := hfirst.trans hmembers

/-- An object without members is read. -/
lemma reads_emptyObject {blanks : List Char} (h : Blanks blanks) :
    Reads ('\x7b' :: (blanks ++ ['\x7d'])) (.object []) where
  token rest _ := ⟨.openObject, _, rfl, nofun⟩
  run stack rest _ := by
    calc (Reader.value stack).run ('\x7b' :: (blanks ++ ['\x7d']) ++ rest)
        = (Reader.firstKey stack).run (blanks ++ ['\x7d'] ++ rest) := run_of_token rfl rfl
      _ = (Reader.firstKey stack).run ('\x7d' :: rest) := by
          rw [List.append_assoc, run_blanks h, List.singleton_append]
      _ = (Reader.after (.object []) stack).run rest := run_of_token rfl rfl

/-! ### All values -/

/-- Related lists can be chosen element by element. -/
lemma exists_forall₂ {α β : Type} {R : α → β → Prop} {l : List α} (h : ∀ a ∈ l, ∃ b, R a b) :
    ∃ l', List.Forall₂ R l l' := by
  induction l with
  | nil => exact ⟨[], .nil⟩
  | cons a l ih =>
    obtain ⟨b, hb⟩ := h a List.mem_cons_self
    obtain ⟨l', hl'⟩ := ih fun x hx => h x (List.mem_cons_of_mem _ hx)
    exact ⟨b :: l', .cons hb hl'⟩

/-- Every value of the grammar is read. -/
theorem IsJson.exists_reads (h : IsJson cs) : ∃ v, Reads cs v := by
  induction h with
  | null => exact ⟨.null, reads_of_token (fun _ _ => rfl) fun _ => rfl⟩
  | true => exact ⟨_, reads_of_token (fun _ _ => rfl) fun _ => rfl⟩
  | false => exact ⟨_, reads_of_token (fun _ _ => rfl) fun _ => rfl⟩
  | number hnumber =>
    obtain ⟨n?, hn⟩ := hnumber.exists_nextToken
    exact ⟨_, reads_of_token hn fun _ => rfl⟩
  | string hbody => exact ⟨_, reads_of_token (fun rest _ => hbody.isToken rest) fun _ => rfl⟩
  | emptyArray hblanks => exact ⟨_, reads_emptyArray hblanks⟩
  | @array items hne hblank hitems ih =>
    obtain ⟨values, hvalues⟩ := exists_forall₂ fun i hi =>
      (ih i hi).imp fun v hv => (⟨hblank i hi, hv⟩ : i.Blank ∧ Reads i.text v)
    exact ⟨_, reads_array hvalues hne⟩
  | emptyObject hblanks => exact ⟨_, reads_emptyObject hblanks⟩
  | @object members hne hblank hkeys hvalues ih =>
    have hread : ∀ m ∈ members, ∃ part, Member.Reads m part := by
      intro m hm
      obtain ⟨body, units, hkey, hbody⟩ := hkeys m hm
      obtain ⟨v, hv⟩ := ih m hm
      have htoken := hbody.isToken
      rw [← hkey] at htoken
      exact ⟨(_, v), hblank m hm, htoken, hv⟩
    obtain ⟨parts, hparts⟩ := exists_forall₂ hread
    exact ⟨_, reads_object hparts hne⟩

end Json

end Handheld
