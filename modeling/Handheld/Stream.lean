/-!
# Typed byte streams

A saved state is a sequence of numbers, flags and blocks of bytes with no framing between them.
A `Datum` is one of these values and a `Shape` is what a reader expects; `Datum.encode` writes a
value with its least significant byte first, and `Shape.decode?` takes one off the front of a
stream, or fails if the stream is too short.  `Shape.decodeAll` reads one value after another and
keeps what came before the end of the stream.
-/

namespace Handheld

/-- The `width` bytes of `n`, the least significant one first; higher bytes are dropped. -/
def littleEndian : Nat → Nat → List UInt8
  | 0, _ => []
  | width + 1, n => UInt8.ofNat n :: littleEndian width (n / 256)

/-- The number whose bytes, the least significant one first, are given. -/
def ofLittleEndian : List UInt8 → Nat
  | [] => 0
  | b :: rest => b.toNat + 256 * ofLittleEndian rest

/-- The first `n` bytes of a stream and the rest, or nothing if there are fewer. -/
def takeExactly (n : Nat) (bytes : List UInt8) : Option (List UInt8 × List UInt8) :=
  let (front, rest) := bytes.splitAt n
  if front.length = n then some (front, rest) else none

@[simp] theorem length_littleEndian (width n : Nat) : (littleEndian width n).length = width := by
  induction width generalizing n with
  | zero => rfl
  | succ width ih => simp [littleEndian, ih]

theorem ofLittleEndian_littleEndian (width n : Nat) :
    ofLittleEndian (littleEndian width n) = n % Nat.pow 256 width := by
  induction width generalizing n with
  | zero => simp [littleEndian, ofLittleEndian, Nat.mod_one]
  | succ width ih =>
    have h : Nat.pow 256 (width + 1) = 256 * Nat.pow 256 width := Nat.pow_succ'
    rw [littleEndian, ofLittleEndian, ih, UInt8.toNat_ofNat', h]
    exact (Nat.mod_mul).symm

@[simp] theorem takeExactly_append (front rest : List UInt8) :
    takeExactly front.length (front ++ rest) = some (front, rest) := by
  simp [takeExactly]

theorem takeExactly_eq_none_iff (n : Nat) (bytes : List UInt8) :
    takeExactly n bytes = none ↔ bytes.length < n := by
  simp only [takeExactly, List.splitAt_eq, List.length_take]
  split <;> simp <;> omega

/-- A value in a stream. -/
inductive Datum
  | byte (v : UInt8)
  | flag (v : Bool)
  | half (v : UInt16)
  | word (v : UInt32)
  | long (v : UInt64)
  | block (bytes : List UInt8)
  deriving DecidableEq

/-- What a reader expects next in a stream. -/
inductive Shape
  | byte
  | flag
  | half
  | word
  | long
  | block (size : Nat)
  deriving DecidableEq

namespace Datum

/-- The shape that a value has. -/
def shape : Datum → Shape
  | byte _ => .byte
  | flag _ => .flag
  | half _ => .half
  | word _ => .word
  | long _ => .long
  | block bytes => .block bytes.length

/-- The bytes of a value; a flag is one byte, zero or one. -/
def encode : Datum → List UInt8
  | byte v => [v]
  | flag v => [if v then 1 else 0]
  | half v => littleEndian 2 v.toNat
  | word v => littleEndian 4 v.toNat
  | long v => littleEndian 8 v.toNat
  | block bytes => bytes

end Datum

namespace Shape

/-- How many bytes a value of this shape takes. -/
def width : Shape → Nat
  | byte => 1
  | flag => 1
  | half => 2
  | word => 4
  | long => 8
  | block size => size

/-- The value that `width` bytes stand for; every nonzero byte is a set flag. -/
def interpret : Shape → List UInt8 → Datum
  | byte, bytes => .byte (UInt8.ofNat (ofLittleEndian bytes))
  | flag, bytes => .flag (ofLittleEndian bytes != 0)
  | half, bytes => .half (UInt16.ofNat (ofLittleEndian bytes))
  | word, bytes => .word (UInt32.ofNat (ofLittleEndian bytes))
  | long, bytes => .long (UInt64.ofNat (ofLittleEndian bytes))
  | block _, bytes => .block bytes

/-- Take one value off the front of a stream. -/
def decode? (s : Shape) (bytes : List UInt8) : Option (Datum × List UInt8) :=
  (takeExactly s.width bytes).map fun (front, rest) => (s.interpret front, rest)

/-- Take values off the front of a stream, up to the first that it is too short for.  The second
component is the rest of the stream, if all of them were there. -/
def decodeAll : List Shape → List UInt8 → List Datum × Option (List UInt8)
  | [], bytes => ([], some bytes)
  | s :: shapes, bytes =>
    match s.decode? bytes with
    | none => ([], none)
    | some (d, rest) =>
      let (ds, outcome) := decodeAll shapes rest
      (d :: ds, outcome)

end Shape

theorem Datum.length_encode (d : Datum) : d.encode.length = d.shape.width := by
  cases d <;> simp [Datum.encode, Datum.shape, Shape.width]

theorem Shape.interpret_encode (d : Datum) : d.shape.interpret d.encode = d := by
  cases d with
  | byte v => simp [Datum.encode, Datum.shape, Shape.interpret, ofLittleEndian]
  | flag v => cases v <;> simp [Datum.encode, Datum.shape, Shape.interpret, ofLittleEndian]
  | half v =>
    have := v.toNat_lt
    simp [Datum.encode, Datum.shape, Shape.interpret, ofLittleEndian_littleEndian]
  | word v =>
    have := v.toNat_lt
    simp [Datum.encode, Datum.shape, Shape.interpret, ofLittleEndian_littleEndian]
  | long v =>
    have := v.toNat_lt
    simp [Datum.encode, Datum.shape, Shape.interpret, ofLittleEndian_littleEndian]
  | block bytes => simp [Datum.encode, Datum.shape, Shape.interpret]

/-- Reading a value that was just written gives it back and leaves the rest of the stream. -/
@[simp] theorem Shape.decode?_encode (d : Datum) (rest : List UInt8) :
    d.shape.decode? (d.encode ++ rest) = some (d, rest) := by
  rw [Shape.decode?, ← Datum.length_encode, takeExactly_append]
  simp [Shape.interpret_encode]

end Handheld
