import Handheld.Host
import Handheld.Record

/-!
# The joypad

The joypad shows a program the buttons in two groups of four, on lines that are low while a button
is pressed.  `Joypad.latch` takes over new buttons, and tells whether a line of a selected group
fell; `Joypad.advance` looks at the buttons of the host once per period.

The counter of the cycles has 32 bits, and a program that lets it run over crashes.
`Joypad.advance?` looks first whether the counter has room for the cycles (`Joypad.Fits`).
-/

namespace Handheld

/-- The state of the joypad. -/
structure Joypad where
  /-- Which groups are selected: a clear bit four selects the directions, a clear bit five the other
  buttons. -/
  select : UInt8
  buttons : Buttons
  /-- The cycles since the host was last asked. -/
  phase : UInt32
  /-- The cycles from one question to the next. -/
  period : UInt32
  deriving DecidableEq, Inhabited

namespace Joypad

/-- A joypad that asks once in a number of cycles; it never asks more than once in a cycle. -/
def every (period : UInt32) : Joypad where
  select := 0x30
  buttons := .none
  phase := 0
  period := if period = 0 then 1 else period

/-- The four lines. -/
def lines (j : Joypad) : UInt8 :=
  (if Byte.bit j.select 4 then 0x0F else j.buttons.directionNibble) &&&
    (if Byte.bit j.select 5 then 0x0F else j.buttons.actionNibble)

/-- Read the register. -/
def read (j : Joypad) : UInt8 :=
  0xC0 ||| j.select ||| j.lines

/-- Write the register: select groups. -/
def write (j : Joypad) (v : UInt8) : Joypad :=
  { j with select := v &&& 0x30 }

/-- Take over new buttons.  The second component tells whether a line fell. -/
def latch (j : Joypad) (b : Buttons) : Joypad × Bool :=
  let j' := { j with buttons := b }
  (j', j.lines &&& ~~~j'.lines != 0)

/-- Ask the host `n` times; `fell` becomes true as soon as a line falls. -/
def poll {η : Type} [Host η] : Nat → Joypad → η → Bool → Joypad × η × Bool
  | 0, j, host, fell => (j, host, fell)
  | n + 1, j, host, fell =>
    let (b, host) := Host.pollButtons host
    let (j, fell') := j.latch b
    poll n j host (fell || fell')

/-- The counter has room for some cycles. -/
def Fits (j : Joypad) (cycles : Nat) : Prop := j.phase.toNat + cycles < UInt32.size

instance (j : Joypad) (cycles : Nat) : Decidable (j.Fits cycles) :=
  inferInstanceAs (Decidable (_ < _))

/-- Let cycles pass for which the counter has room.  The last component tells whether a line
fell. -/
def advance {η : Type} [Host η] (j : Joypad) (cycles : UInt32) (host : η) : Joypad × η × Bool :=
  let elapsed := j.phase + cycles
  poll (elapsed / j.period).toNat { j with phase := elapsed % j.period } host false

/-- Let cycles pass, unless the counter has no room for them. -/
def advance? {η : Type} [Host η] (j : Joypad) (cycles : UInt32) (host : η) :
    Option (Joypad × η × Bool) :=
  if j.Fits cycles.toNat then some (j.advance cycles host) else none

/-- The saved form of the joypad. -/
def record : Record Joypad := [
  .word (·.phase) fun v j => { j with phase := v % j.period },
  .byte (·.select) fun v j => { j with select := v &&& 0x30 },
  .byte (·.buttons.bits) fun v j => { j with buttons := ⟨v⟩ }]

theorem period_every_pos (period : UInt32) : 0 < (every period).period := by
  simp only [every]
  split
  · decide
  · next h => exact UInt32.pos_iff_ne_zero.mpr h

end Joypad

end Handheld
