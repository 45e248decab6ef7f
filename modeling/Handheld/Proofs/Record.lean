import Handheld.Record
import Mathlib.Tactic.Lemma

/-!
# Loading what was saved

Saving a component writes bytes, and loading them replaces the fields of another component of the
same type one after another.  `Record.carry?` is the effect of both together without the bytes: each
field goes over from the saved component to the loaded one, and each check is made on what has gone
over so far.  The main statement is `Record.load_save`: wherever `Record.carry?` arrives, loading
the saved bytes arrives as well, and leaves the rest of the stream.

The lemmas `carry?_byte`, `carry?_flag` and so on say what each kind of item carries over, and
`Record.carry?_within` takes a record of a part to the whole along an `IsLens`.

`Record.Refuses` says that loading the saved bytes fails, and why.  A check refuses what has gone
over so far (`refuses_check`), and then every record that contains the check refuses it
(`Refuses.append`, `refuses_trans`, `refuses_part`).
-/

namespace Handheld

/-- `get` reads a part of a whole and `set` replaces it, and nothing else. -/
structure IsLens {σ τ : Type} (get : τ → σ) (set : σ → τ → τ) : Prop where
  get_set : ∀ a t, get (set a t) = a
  set_set : ∀ a b t, set b (set a t) = set b t
  set_get : ∀ t, set (get t) t = t

namespace Item

variable {σ τ : Type}

/-- The component `t` after an item of the component `s` went over, unless the item is refused. -/
def carry? : Item σ → σ → σ → Option σ
  | field shape get put, s, t =>
    if shape t = (get s).shape then (put (get s) t).toOption else none
  | check _ holds, _, t => if holds t then some t else none

@[simp] theorem carry?_byte (get : σ → UInt8) (put : UInt8 → σ → σ) (s t : σ) :
    (byte get put).carry? s t = some (put (get s) t) := rfl

@[simp] theorem carry?_flag (get : σ → Bool) (put : Bool → σ → σ) (s t : σ) :
    (flag get put).carry? s t = some (put (get s) t) := rfl

@[simp] lemma carry?_half (get : σ → UInt16) (put : UInt16 → σ → σ) (s t : σ) :
    (half get put).carry? s t = some (put (get s) t) := rfl

@[simp] lemma carry?_word (get : σ → UInt32) (put : UInt32 → σ → σ) (s t : σ) :
    (word get put).carry? s t = some (put (get s) t) := rfl

@[simp] lemma carry?_long (get : σ → UInt64) (put : UInt64 → σ → σ) (s t : σ) :
    (long get put).carry? s t = some (put (get s) t) := rfl

@[simp] lemma carry?_coded (fault : Fault) (get : σ → UInt8) (put? : UInt8 → σ → Option σ)
    (s t : σ) : (coded fault get put?).carry? s t = put? (get s) t := by
  cases h : put? (get s) t with
  | none => simp [carry?, coded, Datum.shape, h, Except.toOption]
  | some t' => simp [carry?, coded, Datum.shape, h, Except.toOption]

@[simp] lemma carry?_check (fault : Fault) (holds : σ → Bool) (s t : σ) :
    (check fault holds).carry? s t = if holds t then some t else none := rfl

@[simp] lemma carry?_vector {n : Nat} (get : σ → Vector UInt8 n)
    (put : Vector UInt8 n → σ → σ) (s t : σ) :
    (vector get put).carry? s t = some (put (get s) t) := by
  have h : (get s).toList.toArray.size = n := by simp
  have hv : (⟨(get s).toList.toArray, h⟩ : Vector UInt8 n) = get s := by
    apply Vector.toArray_inj.mp
    simp [Vector.toList]
  simp [carry?, vector, Datum.shape, Except.toOption, hv]

/-- An array goes over if the array that it replaces has its size. -/
lemma carry?_array {get : σ → Array UInt8} {put : Array UInt8 → σ → σ} {s t : σ}
    (h : (get t).size = (get s).size) : (array get put).carry? s t = some (put (get s) t) := by
  simp [carry?, array, Datum.shape, Except.toOption, h]

/-- An item of a part goes over as it does in the part. -/
theorem carry?_within {get : τ → σ} {set : σ → τ → τ} (hl : IsLens get set) (i : Item σ)
    (s t : τ) :
    (i.within get set).carry? s t = (i.carry? (get s) (get t)).map fun a => set a t := by
  cases i with
  | field shape value put =>
    simp only [within, carry?]
    split
    · cases put (value (get s)) (get t) <;> rfl
    · rfl
  | check fault holds =>
    simp only [within, carry?]
    split
    · simp [hl.set_get]
    · rfl

end Item

namespace Record

variable {σ τ : Type}

/-- The component `t` after the fields of the component `s` went over, unless one of them or a check
between them is refused. -/
def carry? : Record σ → σ → σ → Option σ
  | [], _, t => some t
  | i :: r, s, t => (i.carry? s t).bind (carry? r s)

@[simp] lemma carry?_nil (s t : σ) : carry? [] s t = some t := rfl

@[simp] lemma carry?_cons (i : Item σ) (r : Record σ) (s t : σ) :
    carry? (i :: r) s t = (i.carry? s t).bind (carry? r s) := rfl

lemma carry?_append (r r' : Record σ) (s t : σ) :
    carry? (r ++ r') s t = (carry? r s t).bind (carry? r' s) := by
  induction r generalizing t with
  | nil => rfl
  | cons i r ih =>
    simp only [List.cons_append, carry?_cons, Option.bind_assoc]
    congr 1
    funext u
    exact ih u

/-- The record of a part carries over the part, and leaves the rest of the whole alone. -/
theorem carry?_within {get : τ → σ} {set : σ → τ → τ} (hl : IsLens get set) (r : Record σ)
    (s t : τ) :
    carry? (Record.within get set r) s t = (carry? r (get s) (get t)).map fun a => set a t := by
  induction r generalizing t with
  | nil => simp [within, hl.set_get]
  | cons i r ih =>
    change ((i.within get set).carry? s t).bind (carry? (Record.within get set r) s) = _
    rw [Item.carry?_within hl, carry?_cons]
    cases i.carry? (get s) (get t) with
    | none => rfl
    | some a => simp [ih, hl.get_set, hl.set_set]

/-- A part goes over by the record of the part. -/
lemma carry?_part {get : τ → σ} {set : σ → τ → τ} (hl : IsLens get set) {r : Record σ} {s t : τ}
    {a : σ} (h : carry? r (get s) (get t) = some a) :
    carry? (Record.within get set r) s t = some (set a t) := by
  rw [carry?_within hl, h, Option.map_some]

/-- What goes over by one record and then by another. -/
lemma carry?_trans {r r' : Record σ} {s t u v : σ} (h : carry? r s t = some u)
    (h' : carry? r' s u = some v) : carry? (r ++ r') s t = some v := by
  rw [carry?_append, h, Option.bind_some, h']

/-- Loading the bytes of a saved component does what carrying over its fields does. -/
theorem load_save {r : Record σ} {s t t' : σ} (h : carry? r s t = some t') (rest : List UInt8) :
    load r (save r s ++ rest) t = ⟨t', .ok rest⟩ := by
  induction r generalizing t with
  | nil =>
    obtain rfl : t = t' := Option.some.inj h
    rfl
  | cons i r ih =>
    obtain ⟨u, hi, hr⟩ := Option.bind_eq_some_iff.mp h
    cases i with
    | check fault holds =>
      simp only [Item.carry?, Option.ite_none_right_eq_some, Option.some.injEq] at hi
      obtain ⟨hholds, rfl⟩ := hi
      simpa [load, save, hholds] using ih hr
    | field shape get put =>
      simp only [Item.carry?, Option.ite_none_right_eq_some] at hi
      obtain ⟨hshape, hput⟩ := hi
      have hsave : save (.field shape get put :: r) s = (get s).encode ++ save r s := rfl
      cases hp : put (get s) t with
      | error fault => simp [hp, Except.toOption] at hput
      | ok v =>
        obtain rfl : v = u := by simpa [hp, Except.toOption] using hput
        simp only [hsave, List.append_assoc, load, hshape, Shape.decode?_encode, hp]
        exact ih hr

/-! ### Parts -/

/-- The record of a part loads the part, and leaves the rest of the whole alone. -/
lemma load_within {get : τ → σ} {set : σ → τ → τ} (hl : IsLens get set) (r : Record σ)
    (bytes : List UInt8) (w : τ) :
    load (Record.within get set r) bytes w =
      ⟨set (load r bytes (get w)).state w, (load r bytes (get w)).outcome⟩ := by
  induction r generalizing bytes w with
  | nil => simp [within, hl.set_get]
  | cons item r ih =>
    have hcons : Record.within get set (item :: r) =
        item.within get set :: Record.within get set r := rfl
    rw [hcons]
    cases item with
    | check fault holds =>
      simp only [Item.within, load]
      split
      · exact ih bytes w
      · rw [hl.set_get]
    | field shape value put =>
      simp only [Item.within, load]
      cases (shape (get w)).decode? bytes with
      | none => simp only [hl.set_get]
      | some p =>
        obtain ⟨d, rest⟩ := p
        cases hput : put d (get w) with
        | error fault => simp only [hput, Except.map, hl.set_get]
        | ok a => simp only [hput, Except.map, ih, hl.get_set, hl.set_set]

/-- The record of a part writes the bytes of the part. -/
lemma save_within (get : τ → σ) (set : σ → τ → τ) (r : Record σ) (w : τ) :
    save (Record.within get set r) w = save r (get w) := by
  simp only [save, within, List.flatMap_map]
  congr 1
  funext item
  cases item <;> rfl

/-! ### Refused bytes -/

/-- Loading the bytes of `s` into `t` fails, whatever follows them. -/
def Refuses (r : Record σ) (s t : σ) (fault : Fault) : Prop :=
  ∀ rest, (load r (save r s ++ rest) t).outcome = .error fault

variable {r r' : Record σ} {s t u : σ} {fault : Fault}

/-- A check that fails. -/
theorem refuses_check {holds : σ → Bool} (h : holds t = false) (r : Record σ) :
    Refuses (.check fault holds :: r) s t fault := by
  intro rest
  simp [load, h]

/-- What is refused stays refused if more follows. -/
theorem Refuses.append (h : Refuses r s t fault) (r' : Record σ) :
    Refuses (r ++ r') s t fault := by
  intro rest
  have hload := h (save r' s ++ rest)
  rw [save_append, List.append_assoc, load_append]
  split
  · rename_i heq
    rw [heq] at hload
    cases hload
  · rename_i heq
    rw [heq] at hload
    exact hload

/-- What is refused after something else has gone over. -/
theorem refuses_trans (h : carry? r s t = some u) (h' : Refuses r' s u fault) :
    Refuses (r ++ r') s t fault := by
  intro rest
  rw [save_append, List.append_assoc, load_append, load_save h]
  exact h' rest

/-- What is refused of a part. -/
theorem refuses_part {get : τ → σ} {set : σ → τ → τ} (hl : IsLens get set) {w w' : τ}
    (h : Refuses r (get w) (get w') fault) : Refuses (Record.within get set r) w w' fault := by
  intro rest
  rw [save_within, load_within hl]
  exact h rest

end Record

end Handheld
