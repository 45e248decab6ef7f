import Handheld.Proofs.Record
import Mathlib.Algebra.Group.Nat.Defs

/-!
# The streams that a record accepts

`Record.Loads r bytes s t rest` says that loading turns the component `s` into `t` and leaves `rest`
of the stream.  The lemmas `loads_byte_iff`, `loads_word_iff` and so on take one item off the front,
`loads_append_iff` and `loads_within_iff` follow the ways in which records are put together.

Which streams a record accepts does not depend on the component that is replaced, as long as this
has some property that loading keeps: `Record.Reads inv r n valid` says that `r` takes `n` bytes,
and that it accepts them if they are there and `valid`.  It follows the structure of a record as
well (`Reads.append`, `Reads.within`).  What `valid` says of a stream is said with `byteAt` and
`wordAt`, the values at fixed places.
-/

namespace Handheld

/-! ### Fixed places in a stream -/

/-- The byte at a place of a stream, or zero behind its end. -/
def byteAt (bytes : List UInt8) (i : Nat) : UInt8 := bytes.getD i 0

/-- The number of four bytes at a place of a stream, the least significant byte first. -/
def wordAt (bytes : List UInt8) (i : Nat) : Nat := ofLittleEndian ((bytes.drop i).take 4)

variable {bytes : List UInt8}

@[simp] lemma byteAt_drop (bytes : List UInt8) (n i : Nat) :
    byteAt (bytes.drop n) i = byteAt bytes (n + i) := by
  simp [byteAt, List.getD_eq_getElem?_getD, List.getElem?_drop]

@[simp] lemma byteAt_tail (bytes : List UInt8) (i : Nat) :
    byteAt bytes.tail i = byteAt bytes (1 + i) := by
  rw [← List.drop_one, byteAt_drop]

@[simp] lemma wordAt_drop (bytes : List UInt8) (n i : Nat) :
    wordAt (bytes.drop n) i = wordAt bytes (n + i) := by
  simp [wordAt, List.drop_drop]

/-- A number of four bytes. -/
lemma ofLittleEndian_lt (bytes : List UInt8) : ofLittleEndian bytes < 256 ^ bytes.length := by
  induction bytes with
  | nil => decide
  | cons b bytes ih =>
    have hb := b.toNat_lt
    rw [ofLittleEndian, List.length_cons, Nat.pow_succ]
    omega

lemma wordAt_lt (bytes : List UInt8) (i : Nat) : wordAt bytes i < UInt32.size := by
  have hlt := ofLittleEndian_lt ((bytes.drop i).take 4)
  have hlength : ((bytes.drop i).take 4).length ≤ 4 := List.length_take_le _ _
  exact Nat.lt_of_lt_of_le hlt (Nat.pow_le_pow_right (by decide) hlength)

/-- Comparing a number of a stream with a bound. -/
@[simp] lemma ofNat_wordAt_lt_iff (bytes : List UInt8) (i : Nat) (bound : UInt32) :
    UInt32.ofNat (wordAt bytes i) < bound ↔ wordAt bytes i < bound.toNat := by
  rw [UInt32.lt_iff_toNat_lt, UInt32.toNat_ofNat_of_lt' (wordAt_lt bytes i)]

/-- The number of a single byte. -/
lemma ofLittleEndian_take_one (bytes : List UInt8) :
    ofLittleEndian (bytes.take 1) = (byteAt bytes 0).toNat := by
  cases bytes with
  | nil => rfl
  | cons b bytes => simp [ofLittleEndian, byteAt]

lemma takeExactly_eq_some_iff {n : Nat} {front rest : List UInt8} :
    takeExactly n bytes = some (front, rest) ↔
      n ≤ bytes.length ∧ front = bytes.take n ∧ rest = bytes.drop n := by
  simp only [takeExactly, List.splitAt_eq, List.length_take]
  by_cases hn : n ≤ bytes.length
  · simp [hn, eq_comm]
  · have hmin : min n bytes.length ≠ n := by omega
    simp [hn, hmin]

lemma Shape.decode?_eq_some_iff {s : Shape} {d : Datum} {rest : List UInt8} :
    s.decode? bytes = some (d, rest) ↔
      s.width ≤ bytes.length ∧ d = s.interpret (bytes.take s.width) ∧
        rest = bytes.drop s.width := by
  constructor
  · intro h
    obtain ⟨⟨front, rest'⟩, htake, heq⟩ := Option.map_eq_some_iff.mp h
    obtain ⟨hle, rfl, rfl⟩ := takeExactly_eq_some_iff.mp htake
    obtain ⟨rfl, rfl⟩ := Prod.mk.inj heq
    exact ⟨hle, rfl, rfl⟩
  · rintro ⟨hle, rfl, rfl⟩
    rw [Shape.decode?, takeExactly_eq_some_iff.mpr ⟨hle, rfl, rfl⟩]
    rfl

namespace Record

variable {σ τ : Type} {r r' : Record σ} {s t : σ} {rest : List UInt8}

/-! ### Loading item by item -/

/-- Loading turns `s` into `t` and leaves the rest of the stream. -/
def Loads (r : Record σ) (bytes : List UInt8) (s t : σ) (rest : List UInt8) : Prop :=
  r.load bytes s = ⟨t, .ok rest⟩

@[simp] lemma loads_nil_iff : Loads [] bytes s t rest ↔ t = s ∧ rest = bytes := by
  simp [Loads, eq_comm]

@[simp] lemma loads_check_iff {fault : Fault} {holds : σ → Bool} :
    Loads (.check fault holds :: r) bytes s t rest ↔
      holds s = true ∧ Loads r bytes s t rest := by
  simp only [Loads, load]
  cases holds s with
  | false => simp
  | true => simp

/-- A field must be there, and its value must be accepted. -/
lemma loads_field_iff {shape : σ → Shape} {get : σ → Datum} {put : Datum → σ → Except Fault σ} :
    Loads (.field shape get put :: r) bytes s t rest ↔
      (shape s).width ≤ bytes.length ∧
      ∃ u, put ((shape s).interpret (bytes.take (shape s).width)) s = .ok u ∧
        Loads r (bytes.drop (shape s).width) u t rest := by
  simp only [Loads, load]
  cases hdecode : (shape s).decode? bytes with
  | none =>
    have hshort : ¬ (shape s).width ≤ bytes.length := by
      intro hle
      rw [Shape.decode?_eq_some_iff.mpr ⟨hle, rfl, rfl⟩] at hdecode
      cases hdecode
    simp [hshort]
  | some p =>
    obtain ⟨d, rest'⟩ := p
    obtain ⟨hle, rfl, rfl⟩ := Shape.decode?_eq_some_iff.mp hdecode
    cases hput : put ((shape s).interpret (bytes.take (shape s).width)) s with
    | error fault => simp [hput]
    | ok u => simp [hput, hle]

@[simp] theorem loads_byte_iff {get : σ → UInt8} {put : UInt8 → σ → σ} :
    Loads (.byte get put :: r) bytes s t rest ↔
      1 ≤ bytes.length ∧ Loads r (bytes.drop 1) (put (byteAt bytes 0) s) t rest := by
  rw [Item.byte, loads_field_iff]
  simp [Shape.width, Shape.interpret, ofLittleEndian_take_one]

@[simp] lemma loads_coded_iff {fault : Fault} {get : σ → UInt8} {put? : UInt8 → σ → Option σ} :
    Loads (.coded fault get put? :: r) bytes s t rest ↔
      1 ≤ bytes.length ∧
        ∃ u, put? (byteAt bytes 0) s = some u ∧ Loads r (bytes.drop 1) u t rest := by
  rw [Item.coded, loads_field_iff]
  cases hput : put? (byteAt bytes 0) s with
  | none => simp [Shape.width, Shape.interpret, ofLittleEndian_take_one, hput]
  | some u => simp [Shape.width, Shape.interpret, ofLittleEndian_take_one, hput]

@[simp] lemma loads_flag_iff {get : σ → Bool} {put : Bool → σ → σ} :
    Loads (.flag get put :: r) bytes s t rest ↔
      1 ≤ bytes.length ∧ Loads r (bytes.drop 1) (put (byteAt bytes 0 != 0) s) t rest := by
  have hzero : ((byteAt bytes 0).toNat != 0) = (byteAt bytes 0 != 0) := by
    rw [Bool.eq_iff_iff, bne_iff_ne, bne_iff_ne]
    exact not_congr (UInt8.toNat_inj (b := 0))
  rw [Item.flag, loads_field_iff]
  simp [Shape.width, Shape.interpret, ofLittleEndian_take_one, hzero]

@[simp] lemma loads_half_iff {get : σ → UInt16} {put : UInt16 → σ → σ} :
    Loads (.half get put :: r) bytes s t rest ↔
      2 ≤ bytes.length ∧
        Loads r (bytes.drop 2) (put (.ofNat (ofLittleEndian (bytes.take 2))) s) t rest := by
  rw [Item.half, loads_field_iff]
  simp [Shape.width, Shape.interpret]

@[simp] theorem loads_word_iff {get : σ → UInt32} {put : UInt32 → σ → σ} :
    Loads (.word get put :: r) bytes s t rest ↔
      4 ≤ bytes.length ∧ Loads r (bytes.drop 4) (put (.ofNat (wordAt bytes 0)) s) t rest := by
  rw [Item.word, loads_field_iff]
  simp [Shape.width, Shape.interpret, wordAt]

@[simp] lemma loads_long_iff {get : σ → UInt64} {put : UInt64 → σ → σ} :
    Loads (.long get put :: r) bytes s t rest ↔
      8 ≤ bytes.length ∧
        Loads r (bytes.drop 8) (put (.ofNat (ofLittleEndian (bytes.take 8))) s) t rest := by
  rw [Item.long, loads_field_iff]
  simp [Shape.width, Shape.interpret]

@[simp] lemma loads_vector_iff {n : Nat} {get : σ → Vector UInt8 n}
    {put : Vector UInt8 n → σ → σ} :
    Loads (.vector get put :: r) bytes s t rest ↔
      n ≤ bytes.length ∧
        Loads r (bytes.drop n) (put (.ofFn fun i => byteAt bytes i) s) t rest := by
  rw [Item.vector, loads_field_iff]
  by_cases hn : n ≤ bytes.length
  · have hsize : (bytes.take n).toArray.size = n := by simp [hn]
    have hvector : (⟨(bytes.take n).toArray, hsize⟩ : Vector UInt8 n) =
        .ofFn fun i => byteAt bytes i := by
      apply Vector.ext
      intro i hi
      have hlt : i < bytes.length := by omega
      simp [byteAt, hlt]
    simp [Shape.width, Shape.interpret, hn, hvector]
  · simp [Shape.width, hn]

@[simp] lemma loads_array_iff {get : σ → Array UInt8} {put : Array UInt8 → σ → σ} :
    Loads (.array get put :: r) bytes s t rest ↔
      (get s).size ≤ bytes.length ∧
        Loads r (bytes.drop (get s).size) (put (bytes.take (get s).size).toArray s) t rest := by
  rw [Item.array, loads_field_iff]
  simp [Shape.width, Shape.interpret]

/-! ### Records of records -/

/-- Loading two records in a row. -/
theorem loads_append_iff :
    Loads (r ++ r') bytes s t rest ↔
      ∃ u mid, Loads r bytes s u mid ∧ Loads r' mid u t rest := by
  unfold Loads
  rw [load_append]
  constructor
  · intro h
    split at h
    · rename_i u mid hload
      exact ⟨u, mid, hload, h⟩
    · cases h
  · rintro ⟨u, mid, hload, h⟩
    rw [hload]
    exact h

/-- Loading a part of a whole. -/
theorem loads_within_iff {get : τ → σ} {set : σ → τ → τ} (hl : IsLens get set) {w w' : τ} :
    Loads (Record.within get set r) bytes w w' rest ↔
      ∃ a, Loads r bytes (get w) a rest ∧ w' = set a w := by
  unfold Loads
  rw [load_within hl]
  rcases load r bytes (get w) with ⟨a, outcome⟩
  simp only [Loaded.mk.injEq]
  constructor
  · rintro ⟨hstate, houtcome⟩
    exact ⟨a, ⟨rfl, houtcome⟩, hstate.symm⟩
  · rintro ⟨_, ⟨rfl, houtcome⟩, hstate⟩
    exact ⟨hstate.symm, houtcome⟩

/-! ### Acceptance -/

/-- As long as `inv` holds, a record takes `n` bytes, and accepts them if they are `valid`. -/
structure Reads (inv : σ → Prop) (r : Record σ) (n : Nat) (valid : List UInt8 → Prop) : Prop where
  accepts : ∀ {bytes s}, inv s → n ≤ bytes.length → valid bytes →
    ∃ t, r.Loads bytes s t (bytes.drop n)
  of_loads : ∀ {bytes s t rest}, inv s → r.Loads bytes s t rest →
    inv t ∧ n ≤ bytes.length ∧ valid bytes ∧ rest = bytes.drop n

namespace Reads

variable {inv : σ → Prop} {n k : Nat} {valid valid' : List UInt8 → Prop}

/-- A vector of bytes is accepted as it is. -/
lemma vector (inv : σ → Prop) (get : σ → Vector UInt8 n) (put : Vector UInt8 n → σ → σ)
    (hput : ∀ v s, inv s → inv (put v s)) : Reads inv [.vector get put] n fun _ => True := by
  constructor
  · intro bytes s _ hlength _
    exact ⟨_, loads_vector_iff.mpr ⟨hlength, loads_nil_iff.mpr ⟨rfl, rfl⟩⟩⟩
  · intro bytes s t rest hs h
    obtain ⟨hlength, h⟩ := loads_vector_iff.mp h
    obtain ⟨rfl, rfl⟩ := loads_nil_iff.mp h
    exact ⟨hput _ _ hs, hlength, trivial, rfl⟩

/-- Two records in a row. -/
theorem append (h : Reads inv r n valid) (h' : Reads inv r' k valid') :
    Reads inv (r ++ r') (n + k) fun bytes => valid bytes ∧ valid' (bytes.drop n) := by
  constructor
  · rintro bytes s hs hlength ⟨hvalid, hvalid'⟩
    obtain ⟨u, hu⟩ := h.accepts hs (by omega) hvalid
    obtain ⟨hinv, -⟩ := h.of_loads hs hu
    obtain ⟨t, ht⟩ := h'.accepts hinv (by rw [List.length_drop]; omega) hvalid'
    rw [List.drop_drop] at ht
    exact ⟨t, loads_append_iff.mpr ⟨u, _, hu, ht⟩⟩
  · intro bytes s t rest hs hload
    obtain ⟨u, mid, hu, ht⟩ := loads_append_iff.mp hload
    obtain ⟨hinv, hlength, hvalid, rfl⟩ := h.of_loads hs hu
    obtain ⟨hinv', hlength', hvalid', rfl⟩ := h'.of_loads hinv ht
    rw [List.length_drop] at hlength'
    exact ⟨hinv', by omega, ⟨hvalid, hvalid'⟩, List.drop_drop⟩

/-- What a reader reads of a part, it reads of the whole. -/
theorem within {get : τ → σ} {set : σ → τ → τ} (h : Reads inv r n valid) (hl : IsLens get set)
    (inv' : τ → Prop) (hget : ∀ w, inv' w → inv (get w))
    (hset : ∀ a w, inv a → inv' w → inv' (set a w)) :
    Reads inv' (Record.within get set r) n valid := by
  constructor
  · intro bytes w hw hlength hvalid
    obtain ⟨a, ha⟩ := h.accepts (hget w hw) hlength hvalid
    exact ⟨set a w, (loads_within_iff hl).mpr ⟨a, ha, rfl⟩⟩
  · intro bytes w w' rest hw hload
    obtain ⟨a, ha, rfl⟩ := (loads_within_iff hl).mp hload
    obtain ⟨hinv, hrest⟩ := h.of_loads (hget w hw) ha
    exact ⟨hset a w hinv hw, hrest⟩

/-- What is read from the streams that satisfy a condition is read from those that satisfy an
equivalent one. -/
lemma congr (h : Reads inv r n valid) (hvalid : ∀ bytes, valid bytes ↔ valid' bytes) :
    Reads inv r n valid' := by
  constructor
  · intro bytes s hs hlength hv
    exact h.accepts hs hlength ((hvalid bytes).mpr hv)
  · intro bytes s t rest hs hload
    obtain ⟨hinv, hlength, hv, hrest⟩ := h.of_loads hs hload
    exact ⟨hinv, hlength, (hvalid bytes).mp hv, hrest⟩

/-- A record accepts a stream and leaves nothing of it exactly if the stream is as long as the
record and `valid`. -/
lemma loads_all_iff (h : Reads inv r n valid) (hs : inv s) (bytes : List UInt8) :
    (∃ t, r.Loads bytes s t []) ↔ bytes.length = n ∧ valid bytes := by
  constructor
  · rintro ⟨t, ht⟩
    obtain ⟨-, hlength, hvalid, hrest⟩ := h.of_loads hs ht
    exact ⟨Nat.le_antisymm (List.drop_eq_nil_iff.mp hrest.symm) hlength, hvalid⟩
  · rintro ⟨hlength, hvalid⟩
    obtain ⟨t, ht⟩ := h.accepts hs (Nat.le_of_eq hlength.symm) hvalid
    rw [List.drop_eq_nil_iff.mpr (Nat.le_of_eq hlength)] at ht
    exact ⟨t, ht⟩

end Reads

end Record

end Handheld
