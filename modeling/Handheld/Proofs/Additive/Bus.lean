import Handheld.Proofs.Additive.Devices
import Handheld.Proofs.Additive.Display
import Handheld.Proofs.Calls
import Handheld.Proofs.Locality

/-!
# Time in two parts: the bus

Joypad and serial link speak to the host.  If a stretch of time passes in two parts, they do so in
another order: the joypad looks at the buttons for the second time after the exchange of a byte, and
not before.  This makes no difference for a host that is `Observed.Steady`: its buttons depend only
on how often they were looked at, and its bytes only on what was sent.

For such a host, and as long as no counter overflows (`Bus.Fits`) and no transfer into sprite memory
is under way, the bus does the same in two parts: `Bus.advance_additive` is the main statement.
-/

namespace Handheld

/-- The byte that a call sends to the other end of the link cable. -/
def Call.sent? : Call → Option UInt8
  | exchange out => some out
  | pixel _ _ _ | frame | buttons | goOn => none

namespace Observed

variable {η : Type}

/-- How often the buttons were looked at. -/
def polls (o : Observed η) : Nat := o.calls.count .buttons

/-- The bytes that were sent to the other end of the link cable, the first one first. -/
def sent (o : Observed η) : List UInt8 := o.calls.filterMap Call.sent?

variable [Host η] {o o' o₁ o₂ o₃ : Observed η}

/-- What a host becomes while the console looks at its buttons and exchanges bytes. -/
inductive Later (o : Observed η) : Observed η → Prop
  | here : Later o o
  | polled {o' : Observed η} (h : Later o o') : Later o (Host.pollButtons o').2
  | exchanged {o' : Observed η} (h : Later o o') (out : UInt8) : Later o (Host.exchange o' out).2

/-- From now on the buttons depend only on how often they were looked at, and the bytes from the
other end of the link cable only on the bytes that were sent. -/
structure Steady (o : Observed η) : Prop where
  buttons : ∀ {o₁ o₂}, o.Later o₁ → o.Later o₂ → o₁.polls = o₂.polls →
    (Host.pollButtons o₁).1 = (Host.pollButtons o₂).1
  bytes : ∀ {o₁ o₂}, o.Later o₁ → o.Later o₂ → o₁.sent = o₂.sent →
    ∀ out, (Host.exchange o₁ out).1 = (Host.exchange o₂ out).1

/-- A look at the buttons is counted. -/
lemma polls_pollButtons (o : Observed η) : (Host.pollButtons o).2.polls = o.polls + 1 := by
  simp [polls, Host.pollButtons]

/-- A look at the buttons sends nothing. -/
lemma sent_pollButtons (o : Observed η) : (Host.pollButtons o).2.sent = o.sent := by
  simp [sent, Host.pollButtons, Call.sent?]

/-- An exchange does not look at the buttons. -/
lemma polls_exchange (o : Observed η) (out : UInt8) :
    (Host.exchange o out).2.polls = o.polls := by
  simp [polls, Host.exchange]

/-- An exchange sends its byte. -/
lemma sent_exchange (o : Observed η) (out : UInt8) :
    (Host.exchange o out).2.sent = o.sent ++ [out] := by
  simp [sent, Host.exchange, Call.sent?]

end Observed

/-! ### The joypad -/

namespace Joypad

variable {η : Type} [Host η]

/-- Some questions, and some more after them, are as many questions as both together. -/
lemma poll_add (n m : Nat) (j : Joypad) (host : η) (fell : Bool) :
    poll (n + m) j host fell =
      poll m (poll n j host fell).1 (poll n j host fell).2.1 (poll n j host fell).2.2 := by
  induction n generalizing j host fell with
  | zero => rw [Nat.zero_add, poll]
  | succ n ih =>
    rw [Nat.succ_add]
    exact ih (j.latch (Host.pollButtons host).1).1 _ _

/-- A line that fell before changes nothing else. -/
lemma poll_fell (n : Nat) (j : Joypad) (host : η) (fell : Bool) :
    poll n j host fell = ((poll n j host false).1, (poll n j host false).2.1,
      fell || (poll n j host false).2.2) := by
  induction n generalizing j host fell with
  | zero => simp [poll]
  | succ n ih =>
    simp only [poll]
    rw [ih _ _ (fell || _), ih _ _ (false || _), Bool.false_or, Bool.or_assoc]

/-- The cycles that have passed do not matter for the questions. -/
lemma poll_phase (n : Nat) (j : Joypad) (phase : UInt32) (host : η) (fell : Bool) :
    poll n { j with phase := phase } host fell =
      ({ (poll n j host fell).1 with phase := phase }, (poll n j host fell).2) := by
  induction n generalizing j host fell with
  | zero => rfl
  | succ n ih => exact ih (j.latch (Host.pollButtons host).1).1 _ _

/-- What passes on a joypad besides the buttons. -/
lemma advance_counter (j : Joypad) (cycles : UInt32) (host : η) :
    (j.advance cycles host).1.period = j.period ∧
      (j.advance cycles host).1.phase = (j.phase + cycles) % j.period := by
  obtain ⟨b, hb⟩ := poll_fst ((j.phase + cycles) / j.period).toNat
    { j with phase := (j.phase + cycles) % j.period } host false
  rw [advance, hb]
  exact ⟨rfl, rfl⟩

/-- The joypad does the same in two parts, and a line falls if it does in one of them. -/
lemma advance_add (j : Joypad) (x y : UInt32) (host : η)
    (hfits : j.phase.toNat + (x.toNat + y.toNat) < 2 ^ 32) :
    let first := j.advance x host
    let second := first.1.advance y first.2.1
    j.advance (x + y) host = (second.1, second.2.1, first.2.2 || second.2.2) := by
  intro first second
  obtain ⟨hperiod, hphase⟩ := advance_counter j x host
  have hfirst : poll ((j.phase + x) / j.period).toNat
      { j with phase := ((j.phase + x) % j.period + y) % j.period } host false =
      ({ first.1 with phase := ((j.phase + x) % j.period + y) % j.period }, first.2) :=
    poll_phase _ { j with phase := (j.phase + x) % j.period } _ _ _
  have hsecond : second = poll (((j.phase + x) % j.period + y) / j.period).toNat
      { first.1 with phase := ((j.phase + x) % j.period + y) % j.period } first.2.1 false := by
    rw [← hphase, ← hperiod]
    rfl
  rw [advance, toNat_elapsed_div hfits, elapsed_mod hfits, poll_add, hfirst, poll_fell, hsecond]

end Joypad

/-! ### The serial link -/

namespace Serial

variable {η : Type} [Host η] {s : Serial}

/-- How many bits are sent after some cycles. -/
def bitsAfter (s : Serial) (cycles : UInt32) : Nat :=
  s.bits.toNat + ((s.phase + cycles) / bitCycles).toNat

/-- Nothing happens on a link that does not drive an exchange. -/
lemma advance_of_not_driving (hs : ¬ s.driving = true) (cycles : UInt32) (host : η) :
    s.advance cycles host = (s, host, false) :=
  if_neg hs

/-- Bits are sent until there are eight. -/
lemma advance_of_lt (hs : s.driving = true) {cycles : UInt32} (hbits : s.bitsAfter cycles < 8)
    (host : η) : s.advance cycles host =
      ({ s with
        phase := (s.phase + cycles) % bitCycles
        bits := UInt8.ofNat (s.bitsAfter cycles) }, host, false) :=
  (if_pos hs).trans (if_pos hbits)

/-- With eight bits the byte is exchanged. -/
lemma advance_of_le (hs : s.driving = true) {cycles : UInt32} (hbits : 8 ≤ s.bitsAfter cycles)
    (host : η) : s.advance cycles host =
      (s.finish (Host.exchange host s.sb).1, (Host.exchange host s.sb).2, true) :=
  (if_pos hs).trans (if_neg (Nat.not_lt.mpr hbits))

/-- An exchange that has ended is not under way any more. -/
lemma transferring_finish (s : Serial) (incoming : UInt8) :
    (s.finish incoming).transferring = false := by
  rw [transferring, finish, Byte.bit_and]
  exact Bool.and_false _

/-- An exchange that has ended is not driven any more. -/
lemma not_driving_finish (s : Serial) (incoming : UInt8) :
    ¬ (s.finish incoming).driving = true := by
  simp [driving, transferring_finish]

/-- The serial link does the same in two parts, and an exchange ends if it does in one of them. -/
lemma advance_add (s : Serial) (x y : UInt32) (host : η)
    (hfits : s.driving = true → s.phase.toNat + (x.toNat + y.toNat) < 2 ^ 32) :
    let first := s.advance x host
    let second := first.1.advance y first.2.1
    s.advance (x + y) host = (second.1, second.2.1, first.2.2 || second.2.2) := by
  intro first second
  by_cases hs : s.driving = true
  · have h := hfits hs
    have hmore : s.bitsAfter (x + y) =
        s.bitsAfter x + (((s.phase + x) % bitCycles + y) / bitCycles).toNat := by
      rw [bitsAfter, bitsAfter, toNat_elapsed_div h]
      omega
    obtain hlt | hle := Nat.lt_or_ge (s.bitsAfter x) 8
    · have hfirst : first = _ := advance_of_lt hs hlt host
      have hs' : first.1.driving = true := by
        rw [hfirst]
        exact hs
      have hbits : first.1.bitsAfter y = s.bitsAfter (x + y) := by
        have htoNat : (UInt8.ofNat (s.bitsAfter x)).toNat = s.bitsAfter x :=
          UInt8.toNat_ofNat_of_lt' (Nat.lt_trans hlt (by decide))
        rw [hfirst, hmore, bitsAfter]
        simp only [htoNat]
      obtain hlt' | hle' := Nat.lt_or_ge (s.bitsAfter (x + y)) 8
      · have hsecond : second = _ := advance_of_lt hs' (hbits.trans_lt hlt') first.2.1
        rw [hsecond, hbits, hfirst]
        simp only [← elapsed_mod h]
        exact advance_of_lt hs hlt' host
      · have hsecond : second = _ := advance_of_le hs' (hle'.trans_eq hbits.symm) first.2.1
        rw [hsecond, hfirst]
        exact advance_of_le hs hle' host
    · have hfirst : first = _ := advance_of_le hs hle host
      have hsecond : second = _ := advance_of_not_driving (by
        rw [hfirst]
        exact not_driving_finish s _) y _
      rw [hsecond, hfirst]
      exact advance_of_le hs (by omega) host
  · have hfirst : first = _ := advance_of_not_driving hs x host
    have hsecond : second = _ := advance_of_not_driving (by rw [hfirst]; exact hs) y _
    rw [hsecond, hfirst]
    exact advance_of_not_driving hs _ host

end Serial

/-! ### Steady hosts -/

namespace Observed

variable {η : Type} [Host η] {o o' o₁ o₂ : Observed η}

/-- What the questions of a joypad make of a host. -/
lemma poll_host (h : o.Later o') (n : Nat) (j : Joypad) (fell : Bool) :
    o.Later (Joypad.poll n j o' fell).2.1 ∧
      (Joypad.poll n j o' fell).2.1.polls = o'.polls + n ∧
      (Joypad.poll n j o' fell).2.1.sent = o'.sent := by
  induction n generalizing j o' fell with
  | zero => exact ⟨h, rfl, rfl⟩
  | succ n ih =>
    obtain ⟨hlater, hpolls, hsent⟩ := ih h.polled (j.latch (Host.pollButtons o').1).1
      (fell || (j.latch (Host.pollButtons o').1).2)
    refine ⟨hlater, hpolls.trans ?_, hsent.trans (sent_pollButtons o')⟩
    rw [polls_pollButtons]
    omega

/-- What a joypad makes of a host. -/
lemma joypad_host (h : o.Later o') (j : Joypad) (cycles : UInt32) :
    o.Later (j.advance cycles o').2.1 ∧ (j.advance cycles o').2.1.sent = o'.sent := by
  obtain ⟨hlater, -, hsent⟩ := poll_host h ((j.phase + cycles) / j.period).toNat
    { j with phase := (j.phase + cycles) % j.period } false
  exact ⟨hlater, hsent⟩

/-- What a serial link makes of a host. -/
lemma serial_host (h : o.Later o') (s : Serial) (cycles : UInt32) :
    o.Later (s.advance cycles o').2.1 ∧ (s.advance cycles o').2.1.polls = o'.polls := by
  unfold Serial.advance
  split
  · simp only
    split
    · exact ⟨h, rfl⟩
    · exact ⟨h.exchanged s.sb, polls_exchange o' s.sb⟩
  · exact ⟨h, rfl⟩

namespace Steady

/-- Two hosts that have been asked equally often answer the next questions in the same way. -/
lemma poll_eq (ho : o.Steady) (h₁ : o.Later o₁) (h₂ : o.Later o₂) (hpolls : o₁.polls = o₂.polls)
    (n : Nat) (j : Joypad) (fell : Bool) :
    (Joypad.poll n j o₁ fell).1 = (Joypad.poll n j o₂ fell).1 ∧
      (Joypad.poll n j o₁ fell).2.2 = (Joypad.poll n j o₂ fell).2.2 := by
  induction n generalizing j o₁ o₂ fell with
  | zero => exact ⟨rfl, rfl⟩
  | succ n ih =>
    simp only [Joypad.poll, ho.buttons h₁ h₂ hpolls]
    refine ih h₁.polled h₂.polled ?_ _ _
    rw [polls_pollButtons, polls_pollButtons, hpolls]

/-- A serial link takes over the same byte if the same bytes were sent. -/
lemma serial_eq (ho : o.Steady) (h₁ : o.Later o₁) (h₂ : o.Later o₂) (hsent : o₁.sent = o₂.sent)
    (s : Serial) (cycles : UInt32) :
    (s.advance cycles o₁).1 = (s.advance cycles o₂).1 ∧
      (s.advance cycles o₁).2.1.sent = (s.advance cycles o₂).2.1.sent ∧
      (s.advance cycles o₁).2.2 = (s.advance cycles o₂).2.2 := by
  unfold Serial.advance
  split
  · simp only
    split
    · exact ⟨rfl, hsent, rfl⟩
    · rw [ho.bytes h₁ h₂ hsent s.sb, sent_exchange, sent_exchange, hsent]
      exact ⟨rfl, rfl, rfl⟩
  · exact ⟨rfl, hsent, rfl⟩

/-- A joypad takes over the same buttons if the host was asked as often. -/
lemma joypad_eq (ho : o.Steady) (h₁ : o.Later o₁) (h₂ : o.Later o₂)
    (hpolls : o₁.polls = o₂.polls) (j : Joypad) (cycles : UInt32) :
    (j.advance cycles o₁).1 = (j.advance cycles o₂).1 ∧
      (j.advance cycles o₁).2.1.polls = (j.advance cycles o₂).2.1.polls ∧
      (j.advance cycles o₁).2.2 = (j.advance cycles o₂).2.2 := by
  obtain ⟨hjoypad, hfell⟩ := ho.poll_eq h₁ h₂ hpolls ((j.phase + cycles) / j.period).toNat
    { j with phase := (j.phase + cycles) % j.period } false
  refine ⟨hjoypad, ?_, hfell⟩
  rw [Joypad.advance, Joypad.advance, (poll_host h₁ _ _ _).2.1, (poll_host h₂ _ _ _).2.1, hpolls]

/-- The joypad does the same in two parts, also if bytes are exchanged between them. -/
lemma joypad_advance_add (ho : o.Steady) (h₁ : o.Later o₁) (h₂ : o.Later o₂) {j : Joypad}
    {x y : UInt32} (hpolls : (j.advance x o₁).2.1.polls = o₂.polls)
    (hfits : j.phase.toNat + (x.toNat + y.toNat) < 2 ^ 32) :
    let first := j.advance x o₁
    let second := first.1.advance y o₂
    let whole := j.advance (x + y) o₁
    whole.1 = second.1 ∧ whole.2.1.polls = second.2.1.polls ∧
      whole.2.2 = (first.2.2 || second.2.2) := by
  intro first second whole
  have hwhole : whole = _ := j.advance_add x y o₁ hfits
  obtain ⟨hlatched, hlooked, hfell⟩ := ho.joypad_eq (joypad_host h₁ j x).1 h₂ hpolls first.1 y
  rw [hwhole]
  exact ⟨hlatched, hlooked, congrArg (first.2.2 || ·) hfell⟩

/-- The serial link does the same in two parts, also if the buttons are looked at between them, and
were not looked at before them. -/
lemma serial_advance_add (ho : o.Steady) (h₁ : o.Later o₁) (h₂ : o.Later o₂) (h₃ : o.Later o₃)
    {s : Serial} {x y : UInt32} (hsent : (s.advance x o₁).2.1.sent = o₂.sent)
    (hbefore : o₃.sent = o₁.sent)
    (hfits : s.driving = true → s.phase.toNat + (x.toNat + y.toNat) < 2 ^ 32) :
    let first := s.advance x o₁
    let second := first.1.advance y o₂
    let whole := s.advance (x + y) o₃
    whole.1 = second.1 ∧ whole.2.1.sent = second.2.1.sent ∧
      whole.2.2 = (first.2.2 || second.2.2) := by
  intro first second whole
  have hwhole : whole = _ := s.advance_add x y o₃ hfits
  obtain ⟨hlink, hsent', hended⟩ := ho.serial_eq h₃ h₁ hbefore s x
  obtain ⟨hlink₂, hsent₂, hended₂⟩ := ho.serial_eq (serial_host h₃ s x).1 h₂
    (hsent'.trans hsent) first.1 y
  rw [hwhole, hlink, hended]
  exact ⟨hlink₂, hsent₂, congrArg (first.2.2 || ·) hended₂⟩

end Steady

end Observed

/-! ### The bus -/

/-- The union of four sets, taken in another order. -/
lemma Sources.union_union_union_comm (r s t u : Sources) :
    (r.union s).union (t.union u) = (r.union t).union (s.union u) := by
  simp only [union, Bool.or_assoc, Bool.or_left_comm]

/-- Requests may be added at once. -/
lemma InterruptController.raise_raise (c : InterruptController) (s t : Sources) :
    (c.raise s).raise t = c.raise (s.union t) := by
  simp only [raise, Sources.union_assoc]

namespace Bus

/-- The interrupts that joypad, serial link and timer ask for while cycles pass. -/
def signals {η : Type} [Host η] (b : Bus) (cycles : UInt32) (host : η) : Sources where
  joypad := (b.joypad.advance cycles host).2.2
  serial := (b.serial.advance cycles (b.joypad.advance cycles host).2.1).2.2
  timer := (b.timer.advance cycles).2

/-- The interrupts that are asked for while cycles pass. -/
def raised {η : Type} [Host η] (b : Bus) (cycles : UInt32) (host : η) : Sources :=
  (b.display.advance cycles b.videoRam b.spriteRam).requests.union (b.signals cycles host)

/-- Nothing is moved into sprite memory if no transfer is under way. -/
lemma transfer_of_inactive {b : Bus} (hdma : b.dma.active = false) (n : Nat) :
    transfer n b = b := by
  cases n with
  | zero => rfl
  | succ n => rw [transfer, if_neg (by rw [hdma]; exact Bool.false_ne_true)]

/-- A bus on which cycles have passed without a transfer into sprite memory. -/
def passed {η : Type} [Host η] (b : Bus) (cycles : UInt32) (host : η) : Bus :=
  { b with
    sound := b.sound.advance cycles
    joypad := (b.joypad.advance cycles host).1
    serial := (b.serial.advance cycles (b.joypad.advance cycles host).2.1).1
    timer := (b.timer.advance cycles).1
    display := (b.display.advance cycles b.videoRam b.spriteRam).display
    interrupts := b.interrupts.raise (b.raised cycles host) }

/-- While time passes, a transfer touches only the sprite memory and its own state. -/
lemma advance_eq {η : Type} [Host η] (b : Bus) (cycles : UInt32) (host : η) :
    ∃ ram dma, (b.advance cycles host).bus =
      { b.passed cycles host with spriteRam := ram, dma := dma } :=
  transfer_eq cycles.toNat (b.passed cycles host)

/-- Time passes without a transfer if none is under way. -/
lemma advance_of_inactive {η : Type} [Host η] {b : Bus} (hdma : b.dma.active = false)
    (cycles : UInt32) (host : η) : (b.advance cycles host).bus = b.passed cycles host := by
  refine transfer_of_inactive ?_ cycles.toNat
  exact hdma

/-- On a bus without a transfer into sprite memory, and with a steady host, time passes in the same
way at once and in two parts: nothing of the bus differs, the buttons were looked at as often, the
same bytes were sent, a button was pressed if one was in either part, and a frame was completed if
one was in either part. -/
theorem advance_additive {η : Type} [Host η] {o : Observed η} (ho : o.Steady) {b : Bus}
    (hdma : b.dma.active = false) {x y : UInt32} (hfits : b.Fits (x.toNat + y.toNat)) :
    let first := b.advance x o
    let second := first.bus.advance y first.host
    let whole := b.advance (x + y) o
    whole.bus = second.bus ∧ whole.host.polls = second.host.polls ∧
      whole.host.sent = second.host.sent ∧
      whole.pressed = (first.pressed || second.pressed) ∧
      whole.frameDone = (first.frameDone || second.frameDone) := by
  intro first second whole
  have hsecond : second = (b.passed x o).advance y first.host :=
    congrArg (advance · y first.host) (advance_of_inactive hdma x o)
  have hdma' : (b.passed x o).dma.active = false := hdma
  have hhere : o.Later o := .here
  -- The hosts that are asked in the first part, in the second part, and in the whole.
  obtain ⟨hj₁, hsent₁⟩ := Observed.joypad_host hhere b.joypad x
  obtain ⟨hs₁, hpolls₁⟩ := Observed.serial_host hj₁ b.serial x
  obtain ⟨hj₂, hsent₂⟩ := Observed.joypad_host hs₁ (b.passed x o).joypad y
  obtain ⟨-, hpolls₂⟩ := Observed.serial_host hj₂ (b.passed x o).serial y
  obtain ⟨hj, hsent⟩ := Observed.joypad_host hhere b.joypad (x + y)
  obtain ⟨-, hpolls⟩ := Observed.serial_host hj b.serial (x + y)
  obtain ⟨hjoypad, hlooked, hpressed⟩ :=
    ho.joypad_advance_add hhere hs₁ hpolls₁.symm hfits.joypad
  obtain ⟨hserial, hbytes, hreceived⟩ := ho.serial_advance_add hj₁ hj₂ hj hsent₂.symm
    (hsent.trans hsent₁.symm) hfits.serial
  have hsound := b.sound.advance_add x y hfits.sound
  have htimer := b.timer.advance_add x y hfits.timer
  have hdisplay := b.display.advance_add x y b.videoRam b.spriteRam hfits.display
  rw [hsecond]
  refine ⟨?_, hpolls.trans (hlooked.trans hpolls₂.symm), hbytes, hpressed,
    congrArg Display.Progress.frameDone hdisplay⟩
  have hsignals : b.signals (x + y) o =
      (b.signals x o).union ((b.passed x o).signals y first.host) := by
    rw [signals, hpressed, hreceived, htimer]
    rfl
  have hraised : b.raised (x + y) o =
      (b.raised x o).union ((b.passed x o).raised y first.host) := by
    rw [raised, hdisplay, hsignals]
    exact Sources.union_union_union_comm _ _ (b.signals x o) _
  have hinterrupts : b.interrupts.raise (b.raised (x + y) o) =
      (b.passed x o).interrupts.raise ((b.passed x o).raised y first.host) := by
    rw [hraised]
    exact (InterruptController.raise_raise _ _ _).symm
  rw [advance_of_inactive hdma, advance_of_inactive hdma', passed, hinterrupts, hsound, htimer,
    hjoypad, hserial, hdisplay]
  rfl

/-- With nothing attached, every answer is the same. -/
lemma steady_solitude (o : Observed Solitude) : o.Steady :=
  ⟨fun _ _ _ => rfl, fun _ _ _ _ => rfl⟩

/-- A console that has begun to send a byte when it is switched on. -/
def sending (c : Cartridge) : Bus :=
  { create c none {} with serial := { sb := 0x42, sc := 0x81 } }

/-- The counters of a console that has just begun to send are far from an overflow. -/
lemma fits_sending (c : Cartridge) :
    (sending c).Fits ((20000 : UInt32).toNat + (20000 : UInt32).toNat) := by
  have hzero : (0 : UInt32).toNat + ((20000 : UInt32).toNat + (20000 : UInt32).toNat) < 2 ^ 32 := by
    decide
  exact ⟨fun _ => hzero, hzero, fun _ => hzero, fun _ => hzero, fun _ => hzero⟩

/-- The byte is sent, and the buttons are looked at, in the first of two parts or at once. -/
theorem advance_additive_sending : ∃ h, Header.parse Cartridge.plainImage = .ok h ∧
    let b := sending ⟨h, Cartridge.plainImage, #[], .fresh h⟩
    let o : Observed Solitude := { host := {} }
    let first := b.advance 20000 o
    let second := first.bus.advance 20000 first.host
    let whole := b.advance (20000 + 20000) o
    o.Steady ∧ b.dma.active = false ∧ whole.bus = second.bus ∧
      whole.host.polls = second.host.polls ∧ whole.host.sent = second.host.sent := by
  obtain ⟨h, hparse⟩ := Cartridge.parse_plainImage
  obtain ⟨hbus, hpolls, hsent, -, -⟩ := advance_additive (steady_solitude { host := {} }) rfl
    (fits_sending ⟨h, Cartridge.plainImage, #[], .fresh h⟩)
  exact ⟨h, hparse, steady_solitude _, rfl, hbus, hpolls, hsent⟩

end Bus

end Handheld
