import Handheld.Cartridge.Header
import Handheld.Registers

/-!
# Diagnostics

A `Diagnostic` is something that happened inside the console and that a user may want to hear
of; it never influences what happens next.  A `Journal` keeps the diagnostics that are at least as
grave as its threshold, in order, and whether the program has crashed.
-/

namespace Handheld

/-- How grave a diagnostic is, the gravest first. -/
inductive Level
  | warn
  | info
  | debug
  | trace
  deriving DecidableEq

namespace Level

/-- The rank of a level; graver levels have smaller ranks. -/
def rank : Level → Nat
  | warn => 0
  | info => 1
  | debug => 2
  | trace => 3

/-- The name of a level. -/
def name : Level → String
  | warn => "WARN"
  | info => "INFO"
  | debug => "DEBUG"
  | trace => "TRACE"

end Level

/-- An executed instruction, as it is traced. -/
structure TracedInstruction where
  /-- Where the instruction stands. -/
  address : UInt16
  /-- Whether the opcode belongs to the extended table. -/
  extended : Bool
  opcode : UInt8
  operand : UInt16
  cycles : UInt32
  /-- The registers after the instruction. -/
  registers : Registers
  deriving DecidableEq

/-- Something worth reporting. -/
inductive Diagnostic
  | executed (instruction : TracedInstruction)
  | illegalOpcode (opcode : UInt8) (address : UInt16)
  | unmappedRead (address : UInt16)
  | unmappedWrite (address : UInt16) (value : UInt8)
  | displayOff (line : UInt8)
  | displayOn
  | spriteTransfer (source : UInt16)
  | bootOverlayOff
  | cartridge (header : Header)
  | batteryRead (path : String)
  | batteryWritten (path : String)
  | batteryLost (error : Error)
  | unloading (title : String) (cycles : UInt64)
  deriving DecidableEq

namespace Diagnostic

/-- How grave each diagnostic is. -/
def level : Diagnostic → Level
  | executed _ => .trace
  | illegalOpcode _ _ | unmappedRead _ | unmappedWrite _ _ | batteryLost _ => .warn
  | displayOff _ | displayOn | spriteTransfer _ | bootOverlayOff | cartridge _ => .debug
  | batteryRead _ | batteryWritten _ | unloading _ _ => .info

/-- A word as it stands in a diagnostic. -/
def wordText (w : UInt16) : String :=
  Hex.upper 4 w.toNat

/-- The line of an executed instruction. -/
def executedText (i : TracedInstruction) : String :=
  wordText i.address ++ ": " ++ (if i.extended then "CB " else "") ++ Hex.upper 2 i.opcode.toNat ++
    " op=" ++ wordText i.operand ++ " cyc=" ++ toString i.cycles.toNat ++
    " AF=" ++ wordText i.registers.af ++ " BC=" ++ wordText i.registers.bc ++
    " DE=" ++ wordText i.registers.de ++ " HL=" ++ wordText i.registers.hl ++
    " SP=" ++ wordText i.registers.sp

/-- The text of a diagnostic. -/
def message : Diagnostic → String
  | executed i => executedText i
  | illegalOpcode opcode address =>
    "illegal opcode " ++ Hex.upper 2 opcode.toNat ++ " at " ++ wordText address
  | unmappedRead address => "read from unmapped address 0x" ++ wordText address
  | unmappedWrite address value =>
    "write 0x" ++ Hex.upper 2 value.toNat ++ " to unmapped address 0x" ++ wordText address
  | displayOff line => "lcd off at line " ++ toString line.toNat
  | displayOn => "lcd on"
  | spriteTransfer source => "oam dma from 0x" ++ wordText source
  | bootOverlayOff => "boot overlay disabled"
  | cartridge h =>
    "cartridge '" ++ h.title ++ "' " ++ h.kind.name ++
      " rom_banks=" ++ toString h.romBanks ++ " ram_banks=" ++ toString h.ramBanks ++
      " battery=" ++ (if h.battery then "true" else "false")
  | batteryRead path => "battery RAM read from " ++ path
  | batteryWritten path => "battery RAM written to " ++ path
  | batteryLost error => "previous cartridge battery not saved: " ++ error.message
  | unloading title cycles =>
    "unloading '" ++ title ++ "' after " ++ toString cycles.toNat ++ " cycles"

/-- A diagnostic with its level in front. -/
def line (d : Diagnostic) : String :=
  d.level.name ++ " " ++ d.message

end Diagnostic

/-- The diagnostics so far, the latest first. -/
structure Journal where
  /-- The least grave level that is kept, or nothing to keep nothing. -/
  threshold : Option Level := none
  entries : List Diagnostic := []
  /-- A counter had no room for the cycles that passed.  The program ended there, and nobody sees
  what is computed afterwards. -/
  crashed : Bool := false

namespace Journal

/-- Whether diagnostics of a level are kept. -/
def keeps (j : Journal) (l : Level) : Bool :=
  match j.threshold with
  | none => false
  | some threshold => l.rank ≤ threshold.rank

/-- Note a diagnostic, if it is grave enough. -/
def note (j : Journal) (d : Diagnostic) : Journal :=
  if j.keeps d.level then { j with entries := d :: j.entries } else j

/-- Note a diagnostic, if there is one. -/
def note? (j : Journal) : Option Diagnostic → Journal
  | none => j
  | some d => j.note d

/-- Note whether the counters had room for the cycles that passed. -/
def crashedUnless (j : Journal) (fits : Bool) : Journal :=
  { j with crashed := j.crashed || !fits }

/-- The lines of the journal, the earliest first. -/
def lines (j : Journal) : List String :=
  j.entries.reverse.map Diagnostic.line

/-- The journal with its lines taken out. -/
def cleared (j : Journal) : Journal :=
  { j with entries := [] }

end Journal

end Handheld
