import Handheld.Console.Basic
import Handheld.Json.Printer

/-!
# Reports about the console

Three views of a console for people and tools: `Console.summary` is one line of text,
`Console.toJson` an object with the same facts and more, and `Console.picture` draws the last
frame with characters.
-/

namespace Handheld

namespace Machine

/-- A word as it stands in a summary. -/
def wordText (w : UInt16) : String :=
  "0x" ++ Hex.lower 4 w.toNat

/-- The registers, the activity, the display and the clock in one line. -/
def summary (m : Machine) : String :=
  let r := m.cpu.regs
  "PC=" ++ wordText r.pc ++ " SP=" ++ wordText r.sp ++ " AF=" ++ wordText r.af ++
    " BC=" ++ wordText r.bc ++ " DE=" ++ wordText r.de ++ " HL=" ++ wordText r.hl ++
    " IME=" ++ (if m.cpu.ime then "1" else "0") ++ " " ++ m.cpu.activity.name ++
    " | Frame=" ++ toString m.clock.frames ++ " LY=" ++ toString m.bus.display.line.toNat ++
    " Mode=" ++ m.bus.display.mode.name ++ " | T=" ++ toString m.clock.cycles.toNat

/-- The facts about a machine as a JSON object. -/
def toJson (m : Machine) : String :=
  let r := m.cpu.regs
  let mapper := m.cartridge.mapper
  Json.object [
    ("title", Json.quote m.cartridge.header.title),
    ("mapper", Json.quote m.cartridge.header.kind.name),
    ("pc", Json.natural r.pc.toNat),
    ("sp", Json.natural r.sp.toNat),
    ("af", Json.natural r.af.toNat),
    ("bc", Json.natural r.bc.toNat),
    ("de", Json.natural r.de.toNat),
    ("hl", Json.natural r.hl.toNat),
    ("ime", Json.bool m.cpu.ime),
    ("halted", Json.bool m.cpu.halted),
    ("stopped", Json.bool m.cpu.stopped),
    ("ie", Json.natural m.bus.interrupts.readEnable.toNat),
    ("if", Json.natural m.bus.interrupts.readRequest.toNat),
    ("mode", Json.natural m.bus.display.mode.code.toNat),
    ("ly", Json.natural m.bus.display.line.toNat),
    ("frame", Json.natural m.clock.frames),
    ("t_cycles", Json.natural m.clock.cycles.toNat),
    ("rom_bank", Json.natural mapper.romBank),
    ("ram_bank", Json.natural mapper.ramBank)]

end Machine

namespace Console

variable {η : Type}

/-- The state of the console in one line. -/
def summary (c : Console η) : String :=
  match c.machine with
  | none => "no cartridge"
  | some m => m.summary

/-- The state of the console as JSON text. -/
def toJson (c : Console η) : String :=
  match c.machine with
  | none => "null"
  | some m => m.toJson

/-- The last frame as text; nothing without a cartridge. -/
def picture (c : Console η) : String :=
  match c.machine with
  | none => ""
  | some m => m.bus.display.frame.text

end Console

end Handheld
