import Handheld.Console.Basic
import Handheld.Proofs.StatusInterrupt
import Mathlib.Algebra.GroupWithZero.Nat

/-!
# The exchange of one byte

Two things happen to the serial link without its registers being written: time passes, and bytes
arrive from the other end.  `Serial.Line` is the link with the host and the interrupt controller
that it speaks to, and `Line.run` is a sequence of such events.  This is what happens to it on the
bus when time passes (`Bus.line_advance`), and when a byte is delivered (`Console.deliver_line`).

What has become of a line since an exchange began does not depend on how the time was divided.  If
this side has the clock, only the total of the cycles counts (`Line.driven`), and if the other side
has it, only the first byte that has arrived (`Line.awaiting`).  Both are shown event by event
(`step_driven`, `step_awaiting`), then for sequences, and from them follows that a byte is exchanged
exactly once (`Line.exchanges_once`).
-/

namespace Handheld

/-- An empty set of requests changes nothing. -/
lemma InterruptController.raise_empty (c : InterruptController) : c.raise {} = c :=
  congrArg (mk _ · _) (Sources.union_empty c.requested)

namespace Serial

/-- What happens to a serial link. -/
inductive Event
  /-- Time passes. -/
  | pass (cycles : UInt32)
  /-- A byte arrives from the other end. -/
  | receive (incoming : UInt8)

/-- The cycles that pass in an event. -/
def Event.cycles : Event → Nat
  | pass cycles => cycles.toNat
  | receive _ => 0

/-- The byte that arrives in an event. -/
def Event.incoming? : Event → Option UInt8
  | pass _ => none
  | receive incoming => some incoming

/-- All cycles that pass. -/
def elapsed (events : List Event) : Nat := (events.map Event.cycles).sum

/-- All bytes that arrive, the first one first. -/
def arrived (events : List Event) : List UInt8 := events.filterMap Event.incoming?

/-- Whether this side waits for a byte. -/
def waiting (s : Serial) : Bool := s.transferring && !s.internalClock

/-- A byte that is waited for ends the exchange. -/
lemma receive?_of_waiting {s : Serial} (hs : s.waiting = true) (incoming : UInt8) :
    s.receive? incoming = some (s.sb, s.finish incoming) :=
  if_pos hs

/-- A byte that is not waited for is lost. -/
lemma receive?_of_not_waiting {s : Serial} (hs : ¬ s.waiting = true) (incoming : UInt8) :
    s.receive? incoming = none :=
  if_neg hs

/-- A serial link with what it speaks to. -/
@[ext] structure Line (η : Type) where
  link : Serial
  host : η
  interrupts : InterruptController

namespace Line

variable {η : Type} {l : Line η} {n : Nat}

/-- Write a register of the link. -/
def write (l : Line η) (r v : UInt8) : Line η := { l with link := l.link.write r v }

/-- A byte arrives.  If it was waited for, the byte that was sent goes back. -/
def receive (l : Line η) (incoming : UInt8) : Line η × Option UInt8 :=
  match l.link.receive? incoming with
  | some (out, link) =>
    ({ l with link := link, interrupts := l.interrupts.raise { serial := true } }, some out)
  | none => (l, none)

/-- A byte that is waited for ends the exchange. -/
lemma receive_of_waiting (hl : l.link.waiting = true) (incoming : UInt8) :
    l.receive incoming = ({ l with
      link := l.link.finish incoming
      interrupts := l.interrupts.raise { serial := true } }, some l.link.sb) := by
  rw [receive, receive?_of_waiting hl]

/-- A byte that is not waited for changes nothing. -/
lemma receive_of_not_waiting (hl : ¬ l.link.waiting = true) (incoming : UInt8) :
    l.receive incoming = (l, none) := by
  rw [receive, receive?_of_not_waiting hl]

variable [Host η]

/-- Let cycles pass. -/
def pass (l : Line η) (cycles : UInt32) : Line η :=
  let (link, host, ended) := l.link.advance cycles l.host
  { link := link, host := host, interrupts := l.interrupts.raise { serial := ended } }

/-- Something happens; the second component is the byte that goes back, if there is one. -/
def step (l : Line η) : Event → Line η × Option UInt8
  | .pass cycles => (l.pass cycles, none)
  | .receive incoming => l.receive incoming

/-- One event after the other. -/
def run (l : Line η) (events : List Event) : Line η :=
  events.foldl (fun l event => (l.step event).1) l

/-- If nothing is driven, time changes nothing. -/
lemma pass_of_not_driving (hl : ¬ l.link.driving = true) (cycles : UInt32) :
    l.pass cycles = l := by
  rw [pass, advance_of_not_driving hl]
  exact Line.ext rfl rfl (InterruptController.raise_empty _)

end Line

end Serial

/-! ### The events of the console -/

/-- When time passes on the bus, and the joypad has looked at the buttons, it passes on the line. -/
theorem Bus.line_advance {η : Type} [Host η] (b : Bus) (cycles : UInt32) (host : η) :
    let after := b.advance cycles host
    let line := Serial.Line.pass ⟨b.serial, (b.joypad.advance cycles host).2.1, b.interrupts⟩ cycles
    after.bus.serial = line.link ∧ after.host = line.host ∧
      after.bus.interrupts.requested.serial = line.interrupts.requested.serial := by
  have hserial : Source.serial ≠ .stat ∧ Source.serial ≠ .vblank := by decide
  obtain ⟨ram, dma, h⟩ := b.advance_eq cycles host
  exact ⟨congrArg serial h, rfl, b.requested_advance hserial.1 hserial.2 cycles host⟩

/-- A byte that is delivered to the console arrives on the line. -/
theorem Console.deliver_line {η : Type} {c : Console η} {m : Machine} (hm : c.machine = some m)
    (host : η) (v : UInt8) :
    let line := Serial.Line.receive ⟨m.bus.serial, host, m.bus.interrupts⟩ v
    c.deliver v = line.2.map fun out =>
      (out, { c with machine := some { m with
        bus := { m.bus with serial := line.1.link, interrupts := line.1.interrupts } } }) := by
  intro line
  by_cases hwaiting : m.bus.serial.waiting = true
  · have hline : line = _ := Serial.Line.receive_of_waiting (l := ⟨_, host, _⟩) hwaiting v
    simp only [hline, deliver, hm, Option.bind_eq_bind, Option.bind_some,
      Serial.receive?_of_waiting hwaiting, Option.map_some]
    rfl
  · have hline : line = _ := Serial.Line.receive_of_not_waiting (l := ⟨_, host, _⟩) hwaiting v
    simp only [hline, deliver, hm, Option.bind_eq_bind, Option.bind_some,
      Serial.receive?_of_not_waiting hwaiting, Option.bind_none, Option.map_none]

namespace Serial

namespace Line

variable {η : Type} {l : Line η} {n : Nat}

/-! ### This side has the clock -/

section

/-- An exchange that this side drives, with the bits that it has sent after `n` cycles. -/
def sending (l : Line η) (n : Nat) : Line η :=
  { l with
    link := {
      sb := l.link.sb
      sc := 0x81
      phase := UInt32.ofNat (n % 512)
      bits := UInt8.ofNat (n / 512) } }

/-- While bits are sent, this side drives the exchange, and does not wait. -/
lemma driving_sending :
    (l.sending n).link.driving = true ∧ ¬ (l.sending n).link.waiting = true := by
  change (Byte.bit 0x81 7 && Byte.bit 0x81 0) = true ∧
    ¬ (Byte.bit 0x81 7 && !Byte.bit 0x81 0) = true
  decide

/-- The bits that are sent after some more cycles. -/
lemma bitsAfter_sending {cycles : UInt32} (hn : n < 4096) (hfits : n + cycles.toNat < 2 ^ 32) :
    (l.sending n).link.bitsAfter cycles = (n + cycles.toNat) / 512 ∧
      ((l.sending n).link.phase + cycles) % bitCycles =
        UInt32.ofNat ((n + cycles.toNat) % 512) := by
  have hphase : (UInt32.ofNat (n % 512)).toNat = n % 512 :=
    UInt32.toNat_ofNat_of_lt' (Nat.lt_trans (Nat.mod_lt n (by decide)) (by decide))
  have hbits : (UInt8.ofNat (n / 512)).toNat = n / 512 :=
    UInt8.toNat_ofNat_of_lt' (by change n / 512 < 256; omega)
  have hsum : (UInt32.ofNat (n % 512) + cycles).toNat = n % 512 + cycles.toNat := by
    rw [UInt32.toNat_add, hphase]
    exact Nat.mod_eq_of_lt (by omega)
  constructor
  · change (UInt8.ofNat (n / 512)).toNat +
      ((UInt32.ofNat (n % 512) + cycles) / 512).toNat = _
    rw [UInt32.toNat_div, hbits, hsum]
    change n / 512 + (n % 512 + cycles.toNat) / 512 = _
    omega
  · apply UInt32.toNat_inj.mp
    change ((UInt32.ofNat (n % 512) + cycles) % 512).toNat = _
    rw [UInt32.toNat_mod, hsum, UInt32.toNat_ofNat_of_lt'
      (Nat.lt_trans (Nat.mod_lt _ (by decide)) (by decide))]
    exact Nat.mod_add_mod n 512 cycles.toNat

variable [Host η]

/-- The line when all bits are sent. -/
def exchanged (l : Line η) : Line η where
  link := { sb := (Host.exchange l.host l.link.sb).1, sc := 0x01 }
  host := (Host.exchange l.host l.link.sb).2
  interrupts := l.interrupts.raise { serial := true }

/-- What has become of a line `n` cycles after this side has begun an exchange. -/
def driven (l : Line η) (n : Nat) : Line η :=
  if n < 4096 then l.sending n else l.exchanged

/-- Eight bits take 4096 cycles. -/
lemma driven_of_lt (hn : n < 4096) : l.driven n = l.sending n := if_pos hn

/-- After 4096 cycles the exchange is over. -/
lemma driven_of_le (hn : 4096 ≤ n) : l.driven n = l.exchanged := if_neg (Nat.not_lt.mpr hn)

/-- A program begins an exchange. -/
lemma write_drive (l : Line η) : l.write 0x02 0x81 = l.driven 0 := rfl

/-- When they are sent, it neither drives an exchange nor waits for one. -/
lemma not_driving_exchanged :
    ¬ l.exchanged.link.driving = true ∧ ¬ l.exchanged.link.waiting = true := by
  change ¬ (Byte.bit 0x01 7 && Byte.bit 0x01 0) = true ∧
    ¬ (Byte.bit 0x01 7 && !Byte.bit 0x01 0) = true
  decide

/-- The eighth bit ends the exchange. -/
lemma finish_sending : (l.sending n).link.finish (Host.exchange l.host l.link.sb).1 =
    l.exchanged.link := by
  have hcontrol : (0x81 &&& 0x7F : UInt8) = 0x01 := by decide
  exact congrArg (Serial.mk _ · 0 0) hcontrol

/-- Time takes a driven exchange further, and after the eighth bit it stays as it is. -/
lemma pass_driven (l : Line η) {cycles : UInt32} (hfits : n + cycles.toNat < 2 ^ 32) :
    (l.driven n).pass cycles = l.driven (n + cycles.toNat) := by
  obtain hn | hn := Nat.lt_or_ge n 4096
  · obtain ⟨hbits, hphase⟩ := bitsAfter_sending (l := l) hn hfits
    rw [driven_of_lt hn, pass]
    obtain hmore | hmore := Nat.lt_or_ge (n + cycles.toNat) 4096
    · rw [driven_of_lt hmore, advance_of_lt driving_sending.1 (by omega), hbits, hphase]
      exact Line.ext rfl rfl (InterruptController.raise_empty _)
    · rw [driven_of_le hmore, advance_of_le driving_sending.1 (by omega)]
      exact Line.ext finish_sending rfl rfl
  · rw [driven_of_le hn, driven_of_le (Nat.le_add_right_of_le hn)]
    exact pass_of_not_driving not_driving_exchanged.1 cycles

/-- A driven exchange takes no notice of bytes that arrive. -/
lemma receive_driven (l : Line η) (incoming : UInt8) :
    (l.driven n).receive incoming = (l.driven n, none) := by
  unfold driven
  split
  · exact receive_of_not_waiting driving_sending.2 incoming
  · exact receive_of_not_waiting not_driving_exchanged.2 incoming

/-- One event takes a driven exchange as much further as there is time in it. -/
theorem step_driven (l : Line η) {event : Event} (hfits : n + event.cycles < 2 ^ 32) :
    (l.driven n).step event = (l.driven (n + event.cycles), none) := by
  cases event with
  | pass cycles => exact congrArg (·, none) (l.pass_driven hfits)
  | receive incoming => exact l.receive_driven incoming

/-- Of a sequence of events only the whole time counts. -/
lemma run_driven (l : Line η) (events : List Event) (hfits : n + elapsed events < 2 ^ 32) :
    (l.driven n).run events = l.driven (n + elapsed events) := by
  induction events generalizing n with
  | nil => rfl
  | cons event events ih =>
    have hsplit : n + elapsed (event :: events) = n + event.cycles + elapsed events :=
      (Nat.add_assoc n _ _).symm
    rw [hsplit] at hfits ⊢
    rw [← ih hfits]
    have hstep : (l.driven n).step event = (l.driven (n + event.cycles), none) :=
      l.step_driven (by omega)
    exact congrArg (fun r => r.1.run events) hstep

end

/-! ### The other side has the clock -/

section

/-- What has become of a line since this side has begun to wait for a byte, and perhaps has got
it. -/
def awaiting (l : Line η) : Option UInt8 → Line η
  | none => { l with link := { sb := l.link.sb, sc := 0x80 } }
  | some incoming =>
    { l with
      link := { sb := incoming, sc := 0x00 }
      interrupts := l.interrupts.raise { serial := true } }

/-- A program begins to wait. -/
lemma write_await (l : Line η) : l.write 0x02 0x80 = l.awaiting none := rfl

/-- Without a byte, this side waits and does not drive the exchange. -/
lemma waiting_none :
    (l.awaiting none).link.waiting = true ∧ ¬ (l.awaiting none).link.driving = true := by
  change (Byte.bit 0x80 7 && !Byte.bit 0x80 0) = true ∧
    ¬ (Byte.bit 0x80 7 && Byte.bit 0x80 0) = true
  decide

/-- With a byte, this side neither waits nor drives the exchange. -/
lemma not_waiting_some (incoming : UInt8) :
    ¬ (l.awaiting (some incoming)).link.waiting = true ∧
      ¬ (l.awaiting (some incoming)).link.driving = true := by
  change ¬ (Byte.bit 0x00 7 && !Byte.bit 0x00 0) = true ∧
    ¬ (Byte.bit 0x00 7 && Byte.bit 0x00 0) = true
  decide

/-- The first byte ends the exchange. -/
lemma finish_awaiting (incoming : UInt8) :
    (l.awaiting none).link.finish incoming = (l.awaiting (some incoming)).link := by
  have hcontrol : (0x80 &&& 0x7F : UInt8) = 0x00 := by decide
  exact congrArg (Serial.mk _ · 0 0) hcontrol

/-- The first byte ends the exchange, and nobody waits for another one. -/
lemma receive_awaiting (l : Line η) (byte? : Option UInt8) (incoming : UInt8) :
    (l.awaiting byte?).receive incoming =
      (l.awaiting (byte?.or (some incoming)), if byte? = none then some l.link.sb else none) := by
  cases byte? with
  | none =>
    refine (receive_of_waiting waiting_none.1 incoming).trans (Prod.ext ?_ rfl)
    exact Line.ext (finish_awaiting incoming) rfl rfl
  | some first => exact receive_of_not_waiting (not_waiting_some first).1 incoming

variable [Host η]

/-- Waiting takes any time. -/
lemma pass_awaiting (l : Line η) (byte? : Option UInt8) (cycles : UInt32) :
    (l.awaiting byte?).pass cycles = l.awaiting byte? := by
  cases byte? with
  | none => exact pass_of_not_driving waiting_none.2 cycles
  | some incoming => exact pass_of_not_driving (not_waiting_some incoming).2 cycles

/-- Of an event only the byte counts, and only if there was none before. -/
theorem step_awaiting (l : Line η) (byte? : Option UInt8) (event : Event) :
    ((l.awaiting byte?).step event).1 = l.awaiting (byte?.or event.incoming?) := by
  cases event with
  | pass cycles =>
    rw [Event.incoming?, Option.or_none]
    exact l.pass_awaiting byte? cycles
  | receive incoming => exact congrArg Prod.fst (l.receive_awaiting byte? incoming)

/-- Of a sequence of events only the first byte counts. -/
lemma run_awaiting (l : Line η) (events : List Event) (byte? : Option UInt8) :
    (l.awaiting byte?).run events = l.awaiting (byte?.or (arrived events).head?) := by
  induction events generalizing byte? with
  | nil => exact congrArg l.awaiting Option.or_none.symm
  | cons event events ih =>
    have hfirst : (arrived (event :: events)).head? =
        event.incoming?.or (arrived events).head? := by
      cases event <;> rfl
    rw [hfirst, ← Option.or_assoc, ← ih, ← step_awaiting]
    rfl

end

/-! ### Exactly once -/

variable [Host η]

/-- A byte is exchanged exactly once, whatever happens between two writes to the registers.

If this side has the clock, the host is asked once if the time reaches eight bits, and otherwise
never.  It is asked in the event in which that time is reached; this event takes over the answer,
ends the exchange and asks for the interrupt, and every other one changes neither registers nor
requests.  If the other side has the clock, the host is never asked and time changes nothing.  The
first byte that arrives ends the exchange, and the byte that was there goes back; all further bytes
change nothing. -/
theorem exchanges_once (l : Line (Observed η)) (events : List Event) :
    let driven := (l.write 0x02 0x81).run events
    let waiting := (l.write 0x02 0x80).run events
    (elapsed events < 2 ^ 32 → driven.host.calls =
      l.host.calls ++ if elapsed events < 4096 then [] else [.exchange l.link.sb]) ∧
    (∀ event, elapsed events + event.cycles < 2 ^ 32 →
      if elapsed events < 4096 ∧ 4096 ≤ elapsed events + event.cycles then
        driven.step event =
          ({ link := { sb := (Host.exchange driven.host l.link.sb).1, sc := 0x01 }
             host := (Host.exchange driven.host l.link.sb).2
             interrupts := driven.interrupts.raise { serial := true } }, none)
      else
        (driven.step event).2 = none ∧ (driven.step event).1.host = driven.host ∧
        (driven.step event).1.link.sb = driven.link.sb ∧
        (driven.step event).1.link.sc = driven.link.sc ∧
        (driven.step event).1.interrupts = driven.interrupts) ∧
    waiting.host = l.host ∧ (∀ cycles, waiting.step (.pass cycles) = (waiting, none)) ∧
    ∀ incoming, waiting.step (.receive incoming) =
      if arrived events = [] then
        ({ waiting with
            link := { sb := incoming, sc := 0x00 }
            interrupts := waiting.interrupts.raise { serial := true } }, some l.link.sb)
      else (waiting, none) := by
  intro driven waiting
  have hwaiting : waiting = l.awaiting (arrived events).head? :=
    (congrArg (run · events) l.write_await).trans (l.run_awaiting events none)
  have hdriven : elapsed events < 2 ^ 32 → driven = l.driven (elapsed events) := by
    intro hfits
    have hrun := l.run_driven (n := 0) events (by omega)
    rwa [Nat.zero_add, ← write_drive] at hrun
  refine ⟨fun hfits => ?_, fun event hfits => ?_, ?_, fun cycles => ?_, fun incoming => ?_⟩
  · rw [hdriven hfits]
    obtain hbefore | hafter := Nat.lt_or_ge (elapsed events) 4096
    · rw [if_pos hbefore, driven_of_lt hbefore]
      exact (List.append_nil _).symm
    · rw [if_neg (Nat.not_lt.mpr hafter), driven_of_le hafter]
      rfl
  · rw [hdriven (by omega), step_driven l hfits]
    by_cases hreached : elapsed events < 4096 ∧ 4096 ≤ elapsed events + event.cycles
    · rw [if_pos hreached, driven_of_le hreached.2, driven_of_lt hreached.1]
      rfl
    rw [if_neg hreached]
    obtain hbefore | hafter := Nat.lt_or_ge (elapsed events) 4096
    · rw [driven_of_lt hbefore, driven_of_lt (by omega)]
      exact ⟨rfl, rfl, rfl, rfl, rfl⟩
    · rw [driven_of_le hafter, driven_of_le (Nat.le_add_right_of_le hafter)]
      exact ⟨rfl, rfl, rfl, rfl, rfl⟩
  · rw [hwaiting]
    cases (arrived events).head? <;> rfl
  · rw [hwaiting]
    exact congrArg (·, none) (l.pass_awaiting _ cycles)
  · rw [hwaiting]
    refine (l.receive_awaiting _ incoming).trans ?_
    cases arrived events with
    | nil => rfl
    | cons first rest => rfl

/-- A line with nobody at the other end. -/
def alone : Line (Observed Solitude) := ⟨{ sb := 0x4B }, ⟨{}, []⟩, {}⟩

/-- On a line with nobody at the other end, the host is asked after 4096 cycles, and a byte of ones
comes back. -/
theorem exchanges_once_alone :
    elapsed [.pass 4000, .receive 0x11] < 2 ^ 32 ∧
      elapsed [.pass 4000, .receive 0x11] + (Event.pass 100).cycles < 2 ^ 32 ∧
      let driven := (alone.write 0x02 0x81).run [.pass 4000, .receive 0x11]
      driven.host.calls = [] ∧ (driven.step (.pass 100)).1.link = { sb := 0xFF, sc := 0x01 } := by
  have hbefore : elapsed [.pass 4000, .receive 0x11] < 2 ^ 32 := by decide
  have hfits : elapsed [.pass 4000, .receive 0x11] + (Event.pass 100).cycles < 2 ^ 32 := by decide
  obtain ⟨hcalls, hstep, -⟩ := exchanges_once alone [.pass 4000, .receive 0x11]
  have hreached := hstep (.pass 100) hfits
  rw [if_pos (by decide)] at hreached
  exact ⟨hbefore, hfits, hcalls hbefore, congrArg (·.1.link) hreached⟩

end Line

end Serial

end Handheld
