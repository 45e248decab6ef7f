import Mathlib.Tactic.Lemma

/-!
# Computations that may trap

The console is written with total operations: an index carries its bound, a difference of natural
numbers stops at zero, bytes and words wrap, and a remainder by zero is defined.  A program for it
computes with arrays and with numbers of fixed size, where such an operation may be impossible.
`Checked` is a computation with these operations, which stops with a `Trap` at the first one that
is impossible.

There is one checked operation for each kind of trap, with a lemma that says when it goes through.
`Checked.countdown` is the loop by which the devices let time pass: it takes periods off a counter
of cycles for as long as there is a whole one.  If its rounds go through, then so does the loop, and
what is left and the number of the rounds are a remainder and a quotient (`Checked.countdown_eq`).
-/

namespace Handheld

/-- Why a computation stops. -/
inductive Trap
  /-- An index lies outside of an array. -/
  | index
  /-- A number is taken off a smaller one. -/
  | subtraction
  /-- A byte is counted on past its last value. -/
  | increment
  /-- A number is divided by zero. -/
  | divisor
  deriving DecidableEq

/-- A computation that may trap. -/
abbrev Checked (α : Type) : Type := Except Trap α

namespace Checked

variable {α β : Type} {n i : Nat}

/-- Go on after a computation that went through. -/
@[simp] lemma ok_bind (a : α) (f : α → Checked β) : (.ok a >>= f : Checked β) = f a := rfl

/-- A computation without checks. -/
@[simp] lemma pure_eq (a : α) : (pure a : Checked α) = .ok a := rfl

/-! ### Arrays -/

/-- Look up an entry of an array. -/
def get (v : Vector α n) (i : Nat) : Checked α :=
  if h : i < n then .ok v[i] else .error .index

/-- Replace an entry of an array. -/
def set (v : Vector α n) (i : Nat) (a : α) : Checked (Vector α n) :=
  if h : i < n then .ok (v.set i a) else .error .index

/-- Use a signed number as an index. -/
def ofInt (z : Int) : Checked Nat :=
  if 0 ≤ z then .ok z.toNat else .error .index

lemma get_of_lt {v : Vector α n} (h : i < n) : get v i = .ok v[i] := dif_pos h

lemma set_of_lt {v : Vector α n} {a : α} (h : i < n) : set v i a = .ok (v.set i a) := dif_pos h

lemma ofInt_of_eq {z : Int} (h : z = i) : ofInt z = .ok i := by
  subst h
  rw [ofInt, if_pos (Int.natCast_nonneg i), Int.toNat_natCast]

/-! ### Numbers -/

/-- Take a number off another one. -/
def sub [LE α] [DecidableLE α] [Sub α] (a b : α) : Checked α :=
  if b ≤ a then .ok (a - b) else .error .subtraction

/-- Count a byte on. -/
def succ (v : UInt8) : Checked UInt8 :=
  if v = 0xFF then .error .increment else .ok (v + 1)

/-- The remainder of a division. -/
def rem (a b : UInt32) : Checked UInt32 :=
  if b = 0 then .error .divisor else .ok (a % b)

lemma sub_of_le [LE α] [DecidableLE α] [Sub α] {a b : α} (h : b ≤ a) : sub a b = .ok (a - b) :=
  if_pos h

lemma sub_eq_ok_iff [LE α] [DecidableLE α] [Sub α] {a b c : α} :
    sub a b = .ok c ↔ b ≤ a ∧ c = a - b := by
  unfold sub
  split
  · rename_i h
    simp [h, eq_comm]
  · rename_i h
    simp [h]

/-- The difference of two bytes that goes through is that of their numbers. -/
lemma sub_byte {k : Nat} (a b : UInt8) (hb : b.toNat = k) (h : k ≤ a.toNat) :
    ∃ c, sub a b = .ok c ∧ c.toNat = a.toNat - k := by
  subst hb
  exact ⟨a - b, sub_of_le (UInt8.le_iff_toNat_le.mpr h), UInt8.toNat_sub_of_le _ _ h⟩

/-- The difference of two words that goes through is that of their numbers. -/
lemma sub_half {k : Nat} (a b : UInt16) (hb : b.toNat = k) (h : k ≤ a.toNat) :
    ∃ c, sub a b = .ok c ∧ c.toNat = a.toNat - k := by
  subst hb
  exact ⟨a - b, sub_of_le (UInt16.le_iff_toNat_le.mpr h), UInt16.toNat_sub_of_le _ _ h⟩

lemma succ_of_lt {v : UInt8} (h : v.toNat < 255) : succ v = .ok (v + 1) := by
  refine if_neg ?_
  rintro rfl
  exact absurd h (by decide)

lemma rem_of_pos {a b : UInt32} (h : 0 < b) : rem a b = .ok (a % b) :=
  if_neg (UInt32.pos_iff_ne_zero.mp h)

/-- A byte with no bits outside of a mask is not greater than the mask. -/
lemma toNat_le_of_and {v mask : UInt8} (h : v &&& mask = v) : v.toNat ≤ mask.toNat := by
  rw [← h, UInt8.toNat_and]
  exact Nat.and_le_right

/-! ### Periods -/

/-- There is one whole period less after one is taken off. -/
lemma toNat_div_of_le {phase cycles : UInt32} (hpos : 0 < cycles) (hle : cycles ≤ phase) :
    (phase / cycles).toNat = ((phase - cycles) / cycles).toNat + 1 := by
  have hpos := UInt32.lt_iff_toNat_lt.mp hpos
  rw [UInt32.toNat_zero] at hpos
  rw [UInt32.toNat_div, UInt32.toNat_div, UInt32.toNat_sub_of_le _ _ hle,
    Nat.div_eq_sub_div hpos (UInt32.le_iff_toNat_le.mp hle)]

/-- A whole period that is taken off leaves the same remainder. -/
lemma sub_mod_of_le {phase cycles : UInt32} (hle : cycles ≤ phase) :
    (phase - cycles) % cycles = phase % cycles := by
  apply UInt32.toNat_inj.mp
  rw [UInt32.toNat_mod, UInt32.toNat_mod, UInt32.toNat_sub_of_le _ _ hle,
    ← Nat.mod_eq_sub_mod (UInt32.le_iff_toNat_le.mp hle)]

/-- There is no whole period in a part of one. -/
lemma toNat_div_of_lt {phase cycles : UInt32} (hlt : phase < cycles) :
    (phase / cycles).toNat = 0 := by
  rw [UInt32.toNat_div]
  exact Nat.div_eq_of_lt (UInt32.lt_iff_toNat_lt.mp hlt)

/-- A counter is smaller after a period is taken off. -/
lemma toNat_sub_lt {phase cycles : UInt32} (hpos : 0 < cycles) (hle : cycles ≤ phase) :
    (phase - cycles).toNat < phase.toNat := by
  have hpos := UInt32.lt_iff_toNat_lt.mp hpos
  have hrest := UInt32.toNat_sub_of_le _ _ hle
  have hle := UInt32.le_iff_toNat_le.mp hle
  rw [UInt32.toNat_zero] at hpos
  omega

/-! ### Loops -/

section

variable {σ : Type}

/-- Take the period of a state off a counter and go through a round, for as long as the counter
holds a whole period and the state wants to go on.  No state has a period of zero. -/
def countdown (period : σ → UInt32) (goesOn : σ → Bool) (round : σ → Checked σ)
    (phase : UInt32) (s : σ) : Checked (UInt32 × σ) :=
  if 0 < period s ∧ period s ≤ phase ∧ goesOn s = true then
    match _h : sub phase (period s) with
    | .error trap => .error trap
    | .ok rest => round s >>= fun s => countdown period goesOn round rest s
  else .ok (phase, s)
termination_by phase.toNat
decreasing_by
  next _ hgo =>
    obtain ⟨hle, rfl⟩ := sub_eq_ok_iff.mp _h
    exact toNat_sub_lt hgo.1 hle

variable {period : σ → UInt32} {goesOn : σ → Bool} {round : σ → Checked σ} {phase : UInt32}
  {s s' : σ}

/-- A round that goes through. -/
lemma countdown_of_le (hpos : 0 < period s) (hle : period s ≤ phase) (hgo : goesOn s = true)
    (hround : round s = .ok s') : countdown period goesOn round phase s =
      countdown period goesOn round (phase - period s) s' := by
  have hsub : sub phase (period s) = .ok (phase - period s) := sub_of_le hle
  rw [countdown, if_pos ⟨hpos, hle, hgo⟩]
  split
  · rename_i htrap
    cases hsub.symm.trans htrap
  · rename_i rest hrest
    obtain rfl := Except.ok.inj (hsub.symm.trans hrest)
    rw [hround, ok_bind]

/-- The counter holds no whole period. -/
lemma countdown_of_lt (hlt : phase < period s) :
    countdown period goesOn round phase s = .ok (phase, s) := by
  rw [countdown, if_neg fun h => UInt32.not_le.mpr hlt h.2.1]

/-- The state does not want to go on. -/
lemma countdown_of_not (hgo : ¬ goesOn s = true) :
    countdown period goesOn round phase s = .ok (phase, s) := by
  rw [countdown, if_neg fun h => hgo h.2.2]

/-- A loop whose rounds go through takes as many rounds as there are whole periods. -/
theorem countdown_eq (I : σ → Prop) {cycles : UInt32} (run : Nat → σ → σ) (hpos : 0 < cycles)
    (hzero : ∀ s, run 0 s = s)
    (hround : ∀ s, I s → ∃ s', round s = .ok s' ∧ I s' ∧ ∀ n, run (n + 1) s = run n s')
    (phase : UInt32) (hs : I s) :
    countdown (fun _ => cycles) (fun _ => true) round phase s =
      .ok (phase % cycles, run (phase / cycles).toNat s) := by
  induction h : phase.toNat using Nat.strongRecOn generalizing phase s with
  | _ k ih =>
    subst h
    by_cases hle : cycles ≤ phase
    · obtain ⟨s', hs', hI, hrun⟩ := hround s hs
      rw [countdown_of_le hpos hle rfl hs', ih _ (toNat_sub_lt hpos hle) _ hI rfl,
        sub_mod_of_le hle, toNat_div_of_le hpos hle, hrun]
    · have hlt := UInt32.not_le.mp hle
      rw [countdown_of_lt hlt, UInt32.mod_eq_of_lt hlt, toNat_div_of_lt hlt, hzero]

end

end Checked

end Handheld
