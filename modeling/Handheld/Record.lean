import Handheld.Stream

/-!
# Saved states of components

A `Record` describes the saved form of a component as a list of `Item`s: fields with the way to
read and to replace them, and checks between the fields.  One description serves both directions.
`Record.save` writes the fields in order.  `Record.load` replaces them one after another, and stops
at the first field that the stream is too short for, at the first value that a field refuses and at
the first check that fails; what was replaced before stays replaced, so `Loaded` carries the state
also of a load that failed.  `Record.within` embeds the record of a part in the record of a whole.
-/

namespace Handheld

/-- Why a saved state is refused. -/
inductive Fault
  /-- The stream ends inside a field. -/
  | endOfStream
  /-- The delay of the interrupt master enable has no such stage. -/
  | imeTransition
  /-- The timer has counted past the end of its period. -/
  | timerPhase
  /-- The serial link has counted past the end of a bit. -/
  | serialPhase
  /-- The frame sequencer has counted past the end of its period. -/
  | sequencerPhase
  /-- The display has no such mode. -/
  | displayMode
  /-- The display has no such line. -/
  | displayLine
  /-- The display has counted past the end of its mode. -/
  | displayDots
  /-- The transfer into sprite memory is past its end. -/
  | dmaIndex
  deriving DecidableEq

namespace Fault

/-- The text of a fault. -/
def message : Fault → String
  | endOfStream => "failed to fill whole buffer"
  | imeTransition => "ime transition"
  | timerPhase => "timer phase"
  | serialPhase => "serial phase"
  | sequencerPhase => "frame sequencer phase"
  | displayMode => "display mode"
  | displayLine => "display line"
  | displayDots => "display dot counter"
  | dmaIndex => "dma index"

end Fault

/-- One step of saving or loading a component of type `σ`. -/
inductive Item (σ : Type) where
  /-- A value in the stream; `put` may refuse what was read, and the state then stays as it was. -/
  | field (shape : σ → Shape) (get : σ → Datum) (put : Datum → σ → Except Fault σ)
  /-- A condition on what has been loaded so far. -/
  | check (fault : Fault) (holds : σ → Bool)

/-- The saved form of a component. -/
abbrev Record (σ : Type) := List (Item σ)

/-- What loading leaves behind: the state, and the rest of the stream unless the load failed. -/
structure Loaded (σ : Type) where
  state : σ
  outcome : Except Fault (List UInt8)

namespace Item

variable {σ τ : Type}

/-- A byte. -/
def byte (get : σ → UInt8) (put : UInt8 → σ → σ) : Item σ :=
  field (fun _ => .byte) (fun s => .byte (get s)) fun d s =>
    match d with
    | .byte v => .ok (put v s)
    | _ => .ok s

/-- A byte that stands for a value, and is refused if it stands for none. -/
def coded (fault : Fault) (get : σ → UInt8) (put? : UInt8 → σ → Option σ) : Item σ :=
  field (fun _ => .byte) (fun s => .byte (get s)) fun d s =>
    match d with
    | .byte v =>
      match put? v s with
      | some s' => .ok s'
      | none => .error fault
    | _ => .ok s

/-- A flag. -/
def flag (get : σ → Bool) (put : Bool → σ → σ) : Item σ :=
  field (fun _ => .flag) (fun s => .flag (get s)) fun d s =>
    match d with
    | .flag v => .ok (put v s)
    | _ => .ok s

/-- A number of two bytes. -/
def half (get : σ → UInt16) (put : UInt16 → σ → σ) : Item σ :=
  field (fun _ => .half) (fun s => .half (get s)) fun d s =>
    match d with
    | .half v => .ok (put v s)
    | _ => .ok s

/-- A number of four bytes. -/
def word (get : σ → UInt32) (put : UInt32 → σ → σ) : Item σ :=
  field (fun _ => .word) (fun s => .word (get s)) fun d s =>
    match d with
    | .word v => .ok (put v s)
    | _ => .ok s

/-- A number of eight bytes. -/
def long (get : σ → UInt64) (put : UInt64 → σ → σ) : Item σ :=
  field (fun _ => .long) (fun s => .long (get s)) fun d s =>
    match d with
    | .long v => .ok (put v s)
    | _ => .ok s

/-- A vector of bytes. -/
def vector {n : Nat} (get : σ → Vector UInt8 n) (put : Vector UInt8 n → σ → σ) : Item σ :=
  field (fun _ => .block n) (fun s => .block (get s).toList) fun d s =>
    match d with
    | .block bytes =>
      if h : bytes.toArray.size = n then .ok (put ⟨bytes.toArray, h⟩ s) else .ok s
    | _ => .ok s

/-- An array of bytes, as long as the one that it replaces. -/
def array (get : σ → Array UInt8) (put : Array UInt8 → σ → σ) : Item σ :=
  field (fun s => .block (get s).size) (fun s => .block (get s).toList) fun d s =>
    match d with
    | .block bytes => .ok (put bytes.toArray s)
    | _ => .ok s

/-- The item of a part, as an item of the whole. -/
def within (get : τ → σ) (set : σ → τ → τ) : Item σ → Item τ
  | field shape value put =>
    field (fun t => shape (get t)) (fun t => value (get t)) fun d t =>
      (put d (get t)).map fun s => set s t
  | check fault holds => check fault fun t => holds (get t)

end Item

namespace Record

variable {σ τ : Type}

/-- The record of a part, as a record of the whole. -/
def within (get : τ → σ) (set : σ → τ → τ) (r : Record σ) : Record τ :=
  r.map (Item.within get set)

/-- The bytes of a component. -/
def save (r : Record σ) (s : σ) : List UInt8 :=
  r.flatMap fun
    | .field _ get _ => (get s).encode
    | .check _ _ => []

/-- Replace a component by what a stream says. -/
def load : Record σ → List UInt8 → σ → Loaded σ
  | [], bytes, s => ⟨s, .ok bytes⟩
  | .check fault holds :: items, bytes, s =>
    if holds s then load items bytes s else ⟨s, .error fault⟩
  | .field shape _ put :: items, bytes, s =>
    match (shape s).decode? bytes with
    | none => ⟨s, .error .endOfStream⟩
    | some (d, rest) =>
      match put d s with
      | .error fault => ⟨s, .error fault⟩
      | .ok s' => load items rest s'

@[simp] theorem load_nil (bytes : List UInt8) (s : σ) :
    load [] bytes s = ⟨s, .ok bytes⟩ := rfl

@[simp] theorem save_nil (s : σ) : save ([] : Record σ) s = [] := rfl

theorem save_append (r r' : Record σ) (s : σ) :
    save (r ++ r') s = save r s ++ save r' s := by
  simp [save]

/-- Loading two records in a row is loading the second from where the first stopped. -/
theorem load_append (r r' : Record σ) (bytes : List UInt8) (s : σ) :
    load (r ++ r') bytes s =
      match load r bytes s with
      | ⟨s', .ok rest⟩ => load r' rest s'
      | ⟨s', .error fault⟩ => ⟨s', .error fault⟩ := by
  induction r generalizing bytes s with
  | nil => rfl
  | cons item items ih =>
    cases item with
    | check fault holds =>
      simp only [List.cons_append, load]
      split
      · exact ih bytes s
      · rfl
    | field shape get put =>
      simp only [List.cons_append, load]
      cases (shape s).decode? bytes with
      | none => rfl
      | some p =>
        obtain ⟨d, rest⟩ := p
        cases h : put d s with
        | error fault => simp only [h]
        | ok s' => simpa only [h] using ih rest s'

end Record

end Handheld
