import Handheld.Record
import Handheld.Text.Hex

/-!
# Errors

An `Error` is why an operation on the console fails, and `Error.message` is the one place that
words it.  Failures of storage, of a configuration text and of a saved state are causes of their
own: `IoFault`, `ConfigFault` and `SnapshotFault`.
-/

namespace Handheld

/-- Why storage refuses an operation. -/
inductive IoFault
  /-- There is no such file, or no directory to put it into. -/
  | notFound
  /-- The name belongs to a directory. -/
  | isDirectory
  /-- A part of the name leads on from something that is no directory. -/
  | notDirectory
  /-- There is an entry with the name already. -/
  | alreadyExists
  /-- The name, or a part of it, has too many bytes. -/
  | nameTooLong
  /-- The name has a null character in it. -/
  | nullInName
  /-- The medium holds no more bytes. -/
  | full
  deriving DecidableEq

namespace IoFault

/-- The text of a failure of storage. -/
def message : IoFault → String
  | notFound => "No such file or directory (os error 2)"
  | isDirectory => "Is a directory (os error 21)"
  | notDirectory => "Not a directory (os error 20)"
  | alreadyExists => "File exists (os error 17)"
  | nameTooLong => "File name too long (os error 36)"
  | nullInName => "file name contained an unexpected NUL byte"
  | full => "failed to write whole buffer"

end IoFault

/-- Why a configuration is refused. -/
inductive ConfigFault
  /-- The text is not a configuration. -/
  | malformed
  /-- The buttons would be polled without pause. -/
  | zeroPollCycles
  deriving DecidableEq

namespace ConfigFault

/-- The text of a refused configuration. -/
def message : ConfigFault → String
  | malformed => "malformed configuration"
  | zeroPollCycles => "joypad_poll_cycles must be nonzero"

end ConfigFault

/-- Why a saved state of the whole console is refused. -/
inductive SnapshotFault
  /-- The stream does not begin like a saved state. -/
  | missingHeader
  /-- The stream is in another version of the format. -/
  | unsupportedVersion (version : UInt8)
  /-- A component refuses its part. -/
  | component (fault : Fault)
  /-- The stream goes on after the last component. -/
  | trailing (count : Nat)
  deriving DecidableEq

namespace SnapshotFault

/-- The text of a refused saved state. -/
def message : SnapshotFault → String
  | missingHeader => "missing state header"
  | unsupportedVersion version => "unsupported version " ++ toString version.toNat
  | component fault => fault.message
  | trailing count => toString count ++ " trailing bytes"

end SnapshotFault

/-- Why an operation on the console fails. -/
inductive Error
  | imageTooShort (size : Nat)
  | headerChecksum (stored computed : UInt8)
  | unsupportedMapper (code : UInt8)
  | unsupportedRomSize (code : UInt8)
  | unsupportedRamSize (code : UInt8)
  | lengthMismatch (expected actual : Nat)
  | colorOnly
  | bootRomSize (size : Nat)
  | notLoaded
  | badSnapshot (fault : SnapshotFault)
  | io (fault : IoFault)
  | config (fault : ConfigFault)
  deriving DecidableEq

namespace Error

/-- The name of the kind of an error. -/
def kind : Error → String
  | imageTooShort _ => "ImageTooShort"
  | headerChecksum _ _ => "HeaderChecksum"
  | unsupportedMapper _ => "UnsupportedMapper"
  | unsupportedRomSize _ => "UnsupportedRomSize"
  | unsupportedRamSize _ => "UnsupportedRamSize"
  | lengthMismatch _ _ => "LengthMismatch"
  | colorOnly => "ColorOnly"
  | bootRomSize _ => "BootRomSize"
  | notLoaded => "NotLoaded"
  | badSnapshot _ => "BadSnapshot"
  | io _ => "Io"
  | config _ => "Config"

/-- A byte as it stands in an error text. -/
def byteText (b : UInt8) : String :=
  "0x" ++ Hex.lower 2 b.toNat

/-- What an error says about its cause. -/
def detail : Error → String
  | imageTooShort size => toString size ++ " bytes, need at least 16384"
  | headerChecksum stored computed =>
    "header says " ++ byteText stored ++ ", computed " ++ byteText computed
  | unsupportedMapper code => "cartridge type " ++ byteText code
  | unsupportedRomSize code => "code " ++ byteText code
  | unsupportedRamSize code => "code " ++ byteText code
  | lengthMismatch expected actual =>
    "expected " ++ toString expected ++ " bytes, got " ++ toString actual
  | colorOnly => "cartridge requires a color console"
  | bootRomSize size => toString size ++ " bytes, expected 256"
  | notLoaded => "no cartridge inserted"
  | badSnapshot fault => fault.message
  | io fault => fault.message
  | config fault => fault.message

/-- The text of an error: its kind, and what it says about its cause. -/
def message (e : Error) : String :=
  e.kind ++ ": " ++ e.detail

end Error

end Handheld
