import Handheld.Cartridge
import Handheld.Config
import Handheld.Console.Basic
import Handheld.Console.Report
import Handheld.Debug.Message
import Handheld.Debug.Wire
import Handheld.Machine
import Handheld.Proofs.Core.Control
import Handheld.Proofs.Core.MasterEnable
import Handheld.Proofs.Core.MacroStep
import Handheld.Proofs.Core.Simulation
import Handheld.Proofs.Core.Service
import Handheld.Proofs.Core.Flat
import Handheld.Proofs.Core.Footprint
import Handheld.Proofs.Core.Stack
import Handheld.Proofs.Core.Transfer
import Handheld.Proofs.Arithmetic.Accumulator
import Handheld.Proofs.Arithmetic.Numerals
import Handheld.Proofs.Arithmetic.Binary
import Handheld.Proofs.Arithmetic.Decimal
import Handheld.Proofs.Arithmetic.Shifts
import Handheld.Proofs.Record
import Handheld.Proofs.Saved.Cartridge
import Handheld.Proofs.Agreement
import Handheld.Proofs.Breakpoint
import Handheld.Proofs.Battery
import Handheld.Proofs.FrameCounter
import Handheld.Proofs.Format
import Handheld.Proofs.Saved.Accepted
import Handheld.Proofs.Grammar
import Handheld.Proofs.Closure
import Handheld.Proofs.Normalization
import Handheld.Proofs.Coincidence
import Handheld.Proofs.Calls
import Handheld.Proofs.Lockstep
import Handheld.Proofs.Picture
import Handheld.Proofs.FrameDelivery
import Handheld.Proofs.Cartridge.Acceptance
import Handheld.Proofs.Cartridge.Selection
import Handheld.Proofs.Removal
import Handheld.Proofs.Failure
import Handheld.Proofs.Cartridge.BankedRam
import Handheld.Proofs.Cartridge.Restored
import Handheld.Proofs.RomWindows
import Handheld.Proofs.Additive.Devices
import Handheld.Proofs.Additive.Display
import Handheld.Proofs.Additive.Bus
import Handheld.Proofs.Checked.Basic
import Handheld.Proofs.Checked.Devices
import Handheld.Proofs.Checked.Display
import Handheld.Proofs.Checked.Bus
import Handheld.Proofs.Checked.Machine
import Handheld.Proofs.Debugging
import Handheld.Proofs.Running
import Handheld.Proofs.Layers
import Handheld.Proofs.Json.Grammar
import Handheld.Proofs.Json.Tokens
import Handheld.Proofs.Json.Reading
import Handheld.Proofs.Json.Objects
import Handheld.Proofs.Json.Printing
import Handheld.Proofs.Configuration
import Handheld.Proofs.Framing
import Handheld.Proofs.Sprites.Priority
import Handheld.Proofs.Sprites.Selection
import Handheld.Proofs.StatusInterrupt
import Handheld.Proofs.SpriteTransfer
import Handheld.Proofs.Locality
import Handheld.Proofs.Gating
import Handheld.Proofs.TimerCounting
import Handheld.Proofs.SerialExchange
import Handheld.Proofs.Sound.Lengths
import Handheld.Proofs.Sound.Channels
import Handheld.Proofs.ButtonPolling
import Handheld.Proofs.Stop
import Handheld.Proofs.RegisterAccess
import Handheld.Proofs.Stream
