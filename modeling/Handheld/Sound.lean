import Handheld.Record
import Handheld.Word

/-!
# The sound registers

What programs can observe of the sound hardware without listening to it: the registers, the wave
memory, the power switch, and which of the four channels are active.  A channel is started by a
write to its trigger register while its converter is on, and a length counter stops it again.  The
frame sequencer clocks the length counters every second time that its own period ends;
`Sound.advance` lets time pass.
-/

namespace Handheld

/-- A sound channel. -/
inductive Channel
  | square1
  | square2
  | wave
  | noise
  deriving DecidableEq

namespace Channel

/-- The length counter of a channel after it ran out and the channel is started again. -/
def fullLength : Channel → UInt16
  | wave => 256
  | _ => 64

/-- The place of the register that holds the converter switch of a channel. -/
def converterRegister : Channel → Fin 0x17
  | square1 => 0x02
  | square2 => 0x07
  | wave => 0x0A
  | noise => 0x11

/-- The place of the register that starts a channel and enables its length counter. -/
def triggerRegister : Channel → Fin 0x17
  | square1 => 0x04
  | square2 => 0x09
  | wave => 0x0E
  | noise => 0x13

/-- Whether a value of the converter register switches the converter on. -/
def converterOn : Channel → UInt8 → Bool
  | wave, v => Byte.bit v 7
  | _, v => v &&& 0xF8 != 0

/-- The length counter that a value of the length register sets. -/
def lengthOf : Channel → UInt8 → UInt16
  | wave, v => 256 - v.toUInt16
  | _, v => 64 - (v &&& 0x3F).toUInt16

end Channel

/-- One value for each channel. -/
structure PerChannel (α : Type) where
  square1 : α
  square2 : α
  wave : α
  noise : α
  deriving DecidableEq, Inhabited

namespace PerChannel

variable {α β : Type}

/-- The same value for every channel. -/
def all (a : α) : PerChannel α := ⟨a, a, a, a⟩

/-- The value for a channel. -/
def get (p : PerChannel α) : Channel → α
  | .square1 => p.square1
  | .square2 => p.square2
  | .wave => p.wave
  | .noise => p.noise

/-- Replace the value for one channel. -/
def set (p : PerChannel α) (c : Channel) (a : α) : PerChannel α :=
  match c with
  | .square1 => { p with square1 := a }
  | .square2 => { p with square2 := a }
  | .wave => { p with wave := a }
  | .noise => { p with noise := a }

/-- Compute a value for every channel. -/
def ofFn (f : Channel → α) : PerChannel α :=
  ⟨f .square1, f .square2, f .wave, f .noise⟩

@[simp] theorem get_all (a : α) (c : Channel) : (all a).get c = a := by
  cases c <;> rfl

@[simp] theorem get_set (p : PerChannel α) (c d : Channel) (a : α) :
    (p.set c a).get d = if c = d then a else p.get d := by
  cases c <;> cases d <;> rfl

@[simp] theorem get_ofFn (f : Channel → α) (c : Channel) : (ofFn f).get c = f c := by
  cases c <;> rfl

@[simp] theorem set_get (p : PerChannel α) (c : Channel) : p.set c (p.get c) = p := by
  cases c <;> rfl

end PerChannel

/-- The state of the sound hardware. -/
structure Sound where
  /-- The registers before the power switch. -/
  registers : Vector UInt8 0x17
  waveRam : Vector UInt8 16
  power : Bool
  active : PerChannel Bool
  length : PerChannel UInt16
  /-- The cycles since the frame sequencer last stepped. -/
  phase : UInt32
  /-- The next step of the frame sequencer, from zero to seven. -/
  sequence : UInt8
  deriving DecidableEq

namespace Sound

/-- The sound hardware when the console is switched on. -/
def cold : Sound where
  registers := Vector.replicate 0x17 0
  waveRam := Vector.replicate 16 0
  power := false
  active := .all false
  length := .all 0
  phase := 0
  sequence := 0

/-- The sound hardware after the start-up program. -/
def postBoot : Sound :=
  { cold with
    power := true
    active := (PerChannel.all false).set .square1 true
    registers := (cold.registers.set 0x14 0x77).set 0x15 0xF3 }

/-- The cycles between two steps of the frame sequencer. -/
def sequencerCycles : UInt32 := 8192

/-- The bits of each register that read as ones. -/
def readMask : Vector UInt8 0x17 :=
  #v[0x80, 0x3F, 0x00, 0xFF, 0xBF,
    0xFF, 0x3F, 0x00, 0xFF, 0xBF,
    0x7F, 0xFF, 0x9F, 0xFF, 0xBF,
    0xFF, 0xFF, 0x00, 0x00, 0xBF,
    0x00, 0x00, 0x70]

/-- The active channels as the low four bits of a byte. -/
def activeByte (s : Sound) : UInt8 :=
  Byte.ofBit 0 s.active.square1 ||| Byte.ofBit 1 s.active.square2 |||
    Byte.ofBit 2 s.active.wave ||| Byte.ofBit 3 s.active.noise

/-- Whether the converter of a channel is on. -/
def converterOn (s : Sound) (c : Channel) : Bool :=
  c.converterOn s.registers[c.converterRegister]

/-- Whether the length counter of a channel is enabled. -/
def lengthEnabled (s : Sound) (c : Channel) : Bool :=
  Byte.bit s.registers[c.triggerRegister] 6

/-- What a register does besides keeping its value. -/
inductive Role
  | length (c : Channel)
  | converter (c : Channel)
  | trigger (c : Channel)
  | plain

/-- The role of the register with a given place. -/
def Role.of (i : Nat) : Role :=
  match i with
  | 0x01 => length .square1
  | 0x06 => length .square2
  | 0x0B => length .wave
  | 0x10 => length .noise
  | 0x02 => converter .square1
  | 0x07 => converter .square2
  | 0x0A => converter .wave
  | 0x11 => converter .noise
  | 0x04 => trigger .square1
  | 0x09 => trigger .square2
  | 0x0E => trigger .wave
  | 0x13 => trigger .noise
  | _ => plain

/-- Start a channel: a length counter that ran out is filled, and the channel becomes active if its
converter is on. -/
def trigger (s : Sound) (c : Channel) : Sound :=
  let s := if s.length.get c = 0 then { s with length := s.length.set c c.fullLength } else s
  if s.converterOn c then { s with active := s.active.set c true } else s

/-- What a write does besides replacing the register. -/
def respond (s : Sound) (role : Role) (v : UInt8) : Sound :=
  match role with
  | .length c => { s with length := s.length.set c (c.lengthOf v) }
  | .converter c => if c.converterOn v then s else { s with active := s.active.set c false }
  | .trigger c => if Byte.bit v 7 then s.trigger c else s
  | .plain => s

/-- Switch the power.  Switching it off clears all registers, channels and length counters;
switching it on starts the frame sequencer anew. -/
def setPower (s : Sound) (on : Bool) : Sound :=
  match s.power, on with
  | true, false =>
    { s with
      power := false
      registers := Vector.replicate 0x17 0
      active := .all false
      length := .all 0 }
  | false, true => { s with power := true, sequence := 0 }
  | _, _ => s

/-- Read the register with a given low address byte. -/
def read (s : Sound) (r : UInt8) : UInt8 :=
  let n := r.toNat
  if h : 0x10 ≤ n ∧ n ≤ 0x25 then
    have : n - 0x10 < 0x17 := by omega
    s.registers[n - 0x10] ||| readMask[n - 0x10]
  else if n = 0x26 then
    0x70 ||| Byte.ofBit 7 s.power ||| s.activeByte
  else if h : 0x30 ≤ n ∧ n ≤ 0x3F then
    have : n - 0x30 < 16 := by omega
    s.waveRam[n - 0x30]
  else 0xFF

/-- Write the register with a given low address byte.  Without power only the power switch and the
wave memory react. -/
def write (s : Sound) (r v : UInt8) : Sound :=
  let n := r.toNat
  if h : 0x10 ≤ n ∧ n ≤ 0x25 then
    have : n - 0x10 < 0x17 := by omega
    if s.power then
      { s with registers := s.registers.set (n - 0x10) v }.respond (.of (n - 0x10)) v
    else s
  else if n = 0x26 then
    s.setPower (Byte.bit v 7)
  else if h : 0x30 ≤ n ∧ n ≤ 0x3F then
    have : n - 0x30 < 16 := by omega
    { s with waveRam := s.waveRam.set (n - 0x30) v }
  else s

/-- Whether the length counter of a channel counts when it is clocked. -/
def counts (s : Sound) (c : Channel) : Bool :=
  s.lengthEnabled c && s.length.get c != 0

/-- Clock the length counters; a channel whose counter runs out stops. -/
def clockLengths (s : Sound) : Sound :=
  { s with
    length := .ofFn fun c => if s.counts c then s.length.get c - 1 else s.length.get c
    active := .ofFn fun c => s.active.get c && !(s.counts c && s.length.get c == 1) }

/-- Take a step of the frame sequencer. -/
def sequencerStep (s : Sound) : Sound :=
  let s := if s.sequence.toNat % 2 = 0 then s.clockLengths else s
  { s with sequence := (s.sequence + 1) &&& 7 }

/-- Take `n` steps of the frame sequencer. -/
def sequencerSteps : Nat → Sound → Sound
  | 0, s => s
  | n + 1, s => sequencerSteps n s.sequencerStep

/-- Let cycles pass. -/
def advance (s : Sound) (cycles : UInt32) : Sound :=
  if s.power then
    let elapsed := s.phase + cycles
    sequencerSteps (elapsed / sequencerCycles).toNat { s with phase := elapsed % sequencerCycles }
  else s

/-- The saved length counter of a channel. -/
def lengthItem (c : Channel) : Item Sound :=
  .half (·.length.get c) fun v s => { s with length := s.length.set c v }

/-- The saved form of the sound hardware. -/
def record : Record Sound := [
  .word (·.phase) fun v s => { s with phase := v },
  .byte (·.sequence) fun v s => { s with sequence := v &&& 7 },
  .check .sequencerPhase fun s => s.phase < sequencerCycles,
  .flag (·.power) fun v s => { s with power := v },
  .byte activeByte fun v s => { s with
    active := ⟨Byte.bit v 0, Byte.bit v 1, Byte.bit v 2, Byte.bit v 3⟩ },
  lengthItem .square1,
  lengthItem .square2,
  lengthItem .wave,
  lengthItem .noise,
  .vector (·.registers) fun v s => { s with registers := v },
  .vector (·.waveRam) fun v s => { s with waveRam := v }]

end Sound

end Handheld
