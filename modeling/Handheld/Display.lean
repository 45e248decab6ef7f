import Handheld.Diagnostic
import Handheld.Display.Frame
import Handheld.Display.Scanline
import Handheld.Interrupt

/-!
# The display

The display draws a frame line by line.  A visible line passes through the modes `search`,
`transfer` and `hblank`; the ten lines below the screen are `vblank`.  `Display.advance` lets time
pass, mode by mode: it draws a line when its transfer ends, collects the interrupts that it asks
for on the way, and tells whether a frame was completed.  Programs see the display through
registers; `Display.write` also switches it off and on.
-/

namespace Handheld

/-- What the display is doing. -/
inductive Mode
  /-- Waiting at the end of a line. -/
  | hblank
  /-- Waiting below the screen. -/
  | vblank
  /-- Looking for the sprites on a line. -/
  | search
  /-- Drawing a line. -/
  | transfer
  deriving DecidableEq, Inhabited

namespace Mode

/-- The number of a mode in the status register. -/
def code : Mode → UInt8
  | hblank => 0
  | vblank => 1
  | search => 2
  | transfer => 3

/-- The mode with a given number. -/
def ofCode? (v : UInt8) : Option Mode :=
  match v.toNat with
  | 0 => some hblank
  | 1 => some vblank
  | 2 => some search
  | 3 => some transfer
  | _ => none

/-- The name of a mode. -/
def name : Mode → String
  | hblank => "HBlank"
  | vblank => "VBlank"
  | search => "Search"
  | transfer => "Transfer"

/-- How many dots a mode lasts; below the screen, a line. -/
def duration : Mode → UInt32
  | hblank => 204
  | vblank => 456
  | search => 80
  | transfer => 172

theorem duration_pos (m : Mode) : 0 < m.duration := by
  cases m <;> decide

@[simp] theorem ofCode?_code (m : Mode) : ofCode? m.code = some m := by
  cases m <;> rfl

end Mode

/-- The state of the display. -/
structure Display where
  mode : Mode
  /-- The current line. -/
  line : UInt8
  /-- The line that the program wants to hear of. -/
  lineCompare : UInt8
  control : UInt8
  /-- Which events ask for the status interrupt, as bits three to six. -/
  select : UInt8
  scrollY : UInt8
  scrollX : UInt8
  windowY : UInt8
  windowX : UInt8
  background : UInt8
  object0 : UInt8
  object1 : UInt8
  /-- The dots since the mode was entered. -/
  dots : UInt32
  /-- The line of the window that comes next. -/
  windowLine : UInt8
  /-- Whether the current line was the wanted one when a mode was last entered. -/
  coincidence : Bool
  /-- Whether this frame has asked for the vertical blank interrupt already. -/
  vblankRaised : Bool
  frame : Frame
  deriving DecidableEq

namespace Display

/-- The number of lines on the screen; `vblank` begins with the line of this number. -/
def visibleLines : UInt8 := 144

/-- The last line of a frame. -/
def lastLine : UInt8 := 153

/-- The display when the console is switched on. -/
def cold : Display where
  mode := .hblank
  line := 0
  lineCompare := 0
  control := 0
  select := 0
  scrollY := 0
  scrollX := 0
  windowY := 0
  windowX := 0
  background := 0
  object0 := 0
  object1 := 0
  dots := 0
  windowLine := 0
  coincidence := false
  vblankRaised := false
  frame := .blank

/-- The display after the start-up program: on, and at the start of a frame. -/
def postBoot : Display :=
  { cold with
    mode := .search
    control := 0x91
    background := 0xFC
    object0 := 0xFF
    object1 := 0xFF }

/-- Whether the display is on. -/
def enabled (d : Display) : Bool := Byte.bit d.control 7

/-- Whether programs can reach the video memory. -/
def videoAccessible (d : Display) : Bool :=
  !d.enabled || d.mode != .transfer

/-- Whether programs can reach the sprite memory. -/
def oamAccessible (d : Display) : Bool :=
  !d.enabled || (d.mode != .search && d.mode != .transfer)

/-- Whether entering a mode asks for the status interrupt. -/
def selects (d : Display) : Mode → Bool
  | .hblank => Byte.bit d.select 3
  | .vblank => Byte.bit d.select 4
  | .search => Byte.bit d.select 5
  | .transfer => false

/-- Whether reaching the wanted line asks for the status interrupt. -/
def selectsCoincidence (d : Display) : Bool := Byte.bit d.select 6

/-! ### Time -/

/-- A display on its way through a stretch of time. -/
structure Progress where
  display : Display
  /-- The interrupts that were asked for. -/
  requests : Sources := {}
  /-- Whether a frame was completed. -/
  frameDone : Bool := false

/-- What the current line is drawn from. -/
def drawing (d : Display) (video : Vector UInt8 0x2000) (oam : Vector UInt8 0xA0) : Drawing where
  control := d.control
  scrollY := d.scrollY
  scrollX := d.scrollX
  windowY := d.windowY
  windowX := d.windowX
  background := d.background
  object0 := d.object0
  object1 := d.object1
  line := d.line.toNat
  windowLine := d.windowLine
  video := video
  oam := oam

/-- Draw the current line, if it is on the screen. -/
def draw (d : Display) (video : Vector UInt8 0x2000) (oam : Vector UInt8 0xA0) : Display :=
  if h : d.line.toNat < 144 then
    let drawing := d.drawing video oam
    { d with
      frame := d.frame.set d.line.toNat drawing.row
      windowLine := drawing.nextWindowLine }
  else d

namespace Progress

/-- Enter a mode.  The vertical blank interrupt is asked for once in a frame. -/
def enter (p : Progress) (m : Mode) : Progress :=
  let d := p.display
  { p with
    display := { d with mode := m, vblankRaised := d.vblankRaised || m == .vblank }
    requests := p.requests.union {
      vblank := m == .vblank && !d.vblankRaised
      stat := d.selects m } }

/-- Compare the current line with the wanted one; a new match may ask for an interrupt. -/
def compareLine (p : Progress) : Progress :=
  let d := p.display
  let hit := d.line == d.lineCompare
  { p with
    display := { d with coincidence := hit }
    requests := p.requests.union {
      stat := hit && !d.coincidence && d.selectsCoincidence } }

/-- The end of the current mode. -/
def endMode (p : Progress) (video : Vector UInt8 0x2000) (oam : Vector UInt8 0xA0) : Progress :=
  let d := p.display
  match d.mode with
  | .search => p.enter .transfer
  | .transfer => { p with display := d.draw video oam }.enter .hblank
  | .hblank =>
    let line := d.line + 1
    { p with display := { d with line := line } }.enter
      (if line < visibleLines then .search else .vblank)
  | .vblank =>
    let line := d.line + 1
    if line > lastLine then
      { p with
        display := { d with line := 0, windowLine := 0, vblankRaised := false }
        frameDone := true }.enter .search
    else { p with display := { d with line := line } }

/-- Go through the modes for as long as `dots` last, counted from the start of the current mode. -/
def run (video : Vector UInt8 0x2000) (oam : Vector UInt8 0xA0) (p : Progress) (dots : UInt32) :
    Progress :=
  if p.display.mode.duration ≤ dots then
    run video oam (p.endMode video oam).compareLine (dots - p.display.mode.duration)
  else { p with display := { p.display with dots := dots } }
termination_by dots.toNat
decreasing_by
  next h =>
    have h₁ := UInt32.toNat_sub_of_le _ _ h
    have h₂ := UInt32.lt_iff_toNat_lt.mp p.display.mode.duration_pos
    have h₃ := UInt32.le_iff_toNat_le.mp h
    simp at h₂
    omega

end Progress

/-- Let cycles pass; a display that is off does nothing. -/
def advance (d : Display) (cycles : UInt32) (video : Vector UInt8 0x2000)
    (oam : Vector UInt8 0xA0) : Progress :=
  if d.enabled then Progress.run video oam { display := d } (d.dots + cycles) else { display := d }

/-! ### Registers -/

/-- Read the register with a given low address byte. -/
def read (d : Display) (r : UInt8) : UInt8 :=
  match r.toNat with
  | 0x40 => d.control
  | 0x41 =>
    0x80 ||| d.select ||| Byte.ofBit 2 d.coincidence ||| (if d.enabled then d.mode.code else 0)
  | 0x42 => d.scrollY
  | 0x43 => d.scrollX
  | 0x44 => d.line
  | 0x45 => d.lineCompare
  | 0x47 => d.background
  | 0x48 => d.object0
  | 0x49 => d.object1
  | 0x4A => d.windowY
  | 0x4B => d.windowX
  | _ => 0xFF

/-- Write the control register.  A display that goes off rests at the first line; one that goes on
starts a frame. -/
def writeControl (d : Display) (v : UInt8) : Display :=
  let d' := { d with control := v }
  match d.enabled, d'.enabled with
  | true, false => { d' with line := 0, dots := 0, mode := .hblank, coincidence := false }
  | false, true =>
    { d' with
      line := 0
      dots := 0
      mode := .search
      windowLine := 0
      vblankRaised := false
      coincidence := d.lineCompare == 0 }
  | _, _ => d'

/-- Write the register with a given low address byte. -/
def write (d : Display) (r v : UInt8) : Display :=
  match r.toNat with
  | 0x40 => d.writeControl v
  | 0x41 => { d with select := v &&& 0x78 }
  | 0x42 => { d with scrollY := v }
  | 0x43 => { d with scrollX := v }
  | 0x45 => { d with lineCompare := v }
  | 0x47 => { d with background := v }
  | 0x48 => { d with object0 := v }
  | 0x49 => { d with object1 := v }
  | 0x4A => { d with windowY := v }
  | 0x4B => { d with windowX := v }
  | _ => d

/-- What a write is worth reporting for: it switches the display. -/
def writeDiagnostic? (d : Display) (r v : UInt8) : Option Diagnostic :=
  if r = 0x40 then
    match d.enabled, Byte.bit v 7 with
    | true, false => some (.displayOff d.line)
    | false, true => some .displayOn
    | _, _ => none
  else none

/-! ### Saved form -/

/-- The saved registers and counters of the display. -/
def record : Record Display := [
  .word (·.dots) fun v d => { d with dots := v },
  .coded .displayMode (·.mode.code) fun v d =>
    (Mode.ofCode? v).map fun m => { d with mode := m },
  .byte (·.line) fun v d => { d with line := v },
  .byte (·.lineCompare) fun v d => { d with lineCompare := v },
  .check .displayLine fun d => d.line ≤ lastLine,
  .check .displayDots fun d => d.dots < d.mode.duration,
  .byte (·.control) fun v d => { d with control := v },
  .byte (·.select) fun v d => { d with select := v &&& 0x78 },
  .byte (·.scrollY) fun v d => { d with scrollY := v },
  .byte (·.scrollX) fun v d => { d with scrollX := v },
  .byte (·.windowY) fun v d => { d with windowY := v },
  .byte (·.windowX) fun v d => { d with windowX := v },
  .byte (·.background) fun v d => { d with background := v },
  .byte (·.object0) fun v d => { d with object0 := v },
  .byte (·.object1) fun v d => { d with object1 := v },
  .byte (·.windowLine) fun v d => { d with windowLine := v },
  .flag (·.coincidence) fun v d => { d with coincidence := v },
  .flag (·.vblankRaised) fun v d => { d with vblankRaised := v }]

/-- The saved picture; it is replaced only as a whole. -/
def frameRecord : Record Display := [
  .field (fun _ => .block Frame.size) (fun d => .block d.frame.toList) fun value d =>
    match value with
    | .block shades => .ok { d with frame := Frame.ofArray shades.toArray }
    | _ => .ok d]

end Display

end Handheld
