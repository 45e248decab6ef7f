import Handheld.Record
import Mathlib.Tactic.Lemma

/-!
# Reading what was written

Values are written one after another without anything between them, so a reader has to expect their
shapes in the same order.  `Datum.encodeAll` is what a list of values becomes.  The main statement
is `Shape.decodeAll_written`: a reader with the right shapes gets the values back, whatever follows
them in the stream, and if the stream breaks off before the end of the last value, the reader fails
at the value that is broken, with all values before it.  A component that expects this value next is
left as it is, with the fault of a stream that has ended.
-/

namespace Handheld

/-- The bytes of values that are written one after another. -/
def Datum.encodeAll (ds : List Datum) : List UInt8 := ds.flatMap encode

@[simp] lemma Datum.encodeAll_nil : encodeAll [] = [] := rfl

@[simp] lemma Datum.encodeAll_cons (d : Datum) (ds : List Datum) :
    encodeAll (d :: ds) = d.encode ++ encodeAll ds := rfl

namespace Shape

/-- A value is missing exactly if the stream is too short for it. -/
lemma decode?_eq_none_iff (s : Shape) (bytes : List UInt8) :
    s.decode? bytes = none ↔ bytes.length < s.width := by
  rw [decode?, Option.map_eq_none_iff, takeExactly_eq_none_iff]

/-- A reader stops at the first value that is missing. -/
lemma decodeAll_of_short {s : Shape} {bytes : List UInt8} (h : bytes.length < s.width)
    (shapes : List Shape) : decodeAll (s :: shapes) bytes = ([], none) := by
  rw [decodeAll, (decode?_eq_none_iff s bytes).mpr h]

/-- A component is not changed by a field that the stream is too short for. -/
lemma load_of_short {σ : Type} {s : σ} {shape : σ → Shape} {bytes : List UInt8}
    (h : bytes.length < (shape s).width) (get : σ → Datum) (put : Datum → σ → Except Fault σ)
    (items : Record σ) :
    Record.load (.field shape get put :: items) bytes s = ⟨s, .error .endOfStream⟩ := by
  rw [Record.load, (decode?_eq_none_iff (shape s) bytes).mpr h]

/-- A reader gets the values that were written, and goes on with what follows them. -/
lemma decodeAll_append (ds : List Datum) (shapes : List Shape) (bytes : List UInt8) :
    decodeAll (ds.map Datum.shape ++ shapes) (Datum.encodeAll ds ++ bytes) =
      (ds ++ (decodeAll shapes bytes).1, (decodeAll shapes bytes).2) := by
  induction ds with
  | nil => rfl
  | cons d ds ih =>
    rw [Datum.encodeAll_cons, List.append_assoc, List.map_cons, List.cons_append, decodeAll,
      decode?_encode]
    simp only
    rw [ih]
    rfl

/-- A stream that breaks off does so inside a value. -/
lemma exists_broken {ds : List Datum} {front : List UInt8} (hcut : front <+: Datum.encodeAll ds)
    (hne : front ≠ Datum.encodeAll ds) : ∃ whole d others rest, ds = whole ++ d :: others ∧
      front = Datum.encodeAll whole ++ rest ∧ rest.length < d.encode.length := by
  induction ds generalizing front with
  | nil => exact absurd (List.prefix_nil.mp hcut) hne
  | cons d ds ih =>
    rcases Nat.lt_or_ge front.length d.encode.length with hlt | hle
    · exact ⟨[], d, ds, front, rfl, rfl, hlt⟩
    · -- The first value is there, so that the stream breaks off behind it.
      obtain ⟨front', rfl⟩ := List.prefix_of_prefix_length_le
        (List.prefix_append d.encode (Datum.encodeAll ds)) hcut hle
      have hcut' : front' <+: Datum.encodeAll ds := (List.prefix_append_right_inj _).mp hcut
      have hne' : front' ≠ Datum.encodeAll ds := fun heq => hne (heq ▸ rfl)
      obtain ⟨whole, d', others, rest, rfl, rfl, hlt⟩ := ih hcut' hne'
      exact ⟨d :: whole, d', others, rest, rfl, (List.append_assoc _ _ _).symm, hlt⟩

/-- A reader with the right shapes gets back the values that were written and leaves what follows
them.  If the stream breaks off, it fails at the value that is broken, with all values before it,
and so does every component that expects this value there. -/
theorem decodeAll_written (ds : List Datum) :
    (∀ rest, decodeAll (ds.map Datum.shape) (Datum.encodeAll ds ++ rest) = (ds, some rest)) ∧
    (∀ front, front <+: Datum.encodeAll ds → front ≠ Datum.encodeAll ds →
      ∃ whole d others rest, ds = whole ++ d :: others ∧
        front = Datum.encodeAll whole ++ rest ∧ rest.length < d.encode.length ∧
        decodeAll (ds.map Datum.shape) front = (whole, none) ∧
        ∀ (σ : Type) (s : σ) (shape : σ → Shape) (get : σ → Datum)
          (put : Datum → σ → Except Fault σ) (items : Record σ), shape s = d.shape →
          Record.load (.field shape get put :: items) rest s = ⟨s, .error .endOfStream⟩) := by
  constructor
  · intro rest
    have hall := decodeAll_append ds [] rest
    rw [List.append_nil, decodeAll, List.append_nil] at hall
    exact hall
  · intro front hcut hne
    obtain ⟨whole, d, others, rest, rfl, rfl, hlt⟩ := exists_broken hcut hne
    have hshort := hlt
    rw [Datum.length_encode] at hshort
    refine ⟨whole, d, others, rest, rfl, rfl, hlt, ?_, fun σ s shape get put items hshape => ?_⟩
    · rw [List.map_append, List.map_cons, decodeAll_append, decodeAll_of_short hshort,
        List.append_nil]
    · rw [← hshape] at hshort
      exact load_of_short hshort get put items

/-- A number of two bytes, one of four bytes and a flag, where the stream breaks off inside the
second number: only the first one is read. -/
theorem decodeAll_written_broken :
    let ds : List Datum := [.half 0x1234, .word 0xA0B0C0D0, .flag true]
    let front : List UInt8 := [0x34, 0x12, 0xD0, 0xC0, 0xB0]
    front <+: Datum.encodeAll ds ∧ front ≠ Datum.encodeAll ds ∧
      ∃ d others rest, ds = .half 0x1234 :: d :: others ∧
        front = Datum.encodeAll [.half 0x1234] ++ rest ∧ rest.length < d.encode.length ∧
        decodeAll (ds.map Datum.shape) front = ([.half 0x1234], none) ∧
        d.shape = .word ∧ Record.load [.word id fun v _ => v] rest 7 = ⟨7, .error .endOfStream⟩ := by
  intro ds front
  have hcut : front <+: Datum.encodeAll ds := by decide
  have hne : front ≠ Datum.encodeAll ds := by decide
  obtain ⟨whole, d, others, rest, hds, hfront, hlt, hread, hload⟩ :=
    (decodeAll_written ds).2 front hcut hne
  have hvalue : decodeAll (ds.map Datum.shape) front = ([.half 0x1234], none) := by decide
  obtain rfl : whole = [.half 0x1234] := (Prod.mk.inj (hread.symm.trans hvalue)).1
  obtain ⟨-, hrest⟩ := List.cons.inj hds
  have hshape : d.shape = .word := by
    rw [← (List.cons.inj hrest).1]
    rfl
  exact ⟨hcut, hne, d, others, rest, hds, hfront, hlt, hread, hshape,
    hload UInt32 7 _ _ _ [] hshape.symm⟩

/-- The least significant byte comes first. -/
example : Datum.encodeAll [.half 0x1234, .word 0xA0B0C0D0, .flag true] =
    [0x34, 0x12, 0xD0, 0xC0, 0xB0, 0xA0, 0x01] := by
  decide

end Shape

end Handheld
