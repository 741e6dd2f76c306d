import Chip8.Main
import Chip8.Proofs.AddressQuotient
import Chip8.Proofs.FrameDelivery
import Chip8.Proofs.ToneProtocol
import Chip8.Proofs.Restart
import Chip8.Proofs.ColourBlindness
import Chip8.Proofs.Surroundings
import Chip8.Proofs.HexReading
import Chip8.Proofs.SnapshotReading
import Chip8.Proofs.Footprint
import Chip8.Proofs.Refusal
import Chip8.Proofs.Schedule
import Chip8.Proofs.Checked.Agreement
import Chip8.Proofs.Checked.Dump
import Chip8.Proofs.Checked.Loops
import Chip8.Proofs.Checked.Sessions
import Chip8.Proofs.Safety
import Chip8.Proofs.OpcodeTable
import Chip8.Proofs.Dialects
import Chip8.Proofs.Rounds
import Chip8.Proofs.RefreshCadence
import Chip8.Proofs.TimerRate
import Chip8.Proofs.ResolutionNotices
import Chip8.Proofs.HiddenCells
import Chip8.Proofs.NestedCalls
import Chip8.Proofs.Outcome
import Chip8.Proofs.CellValues
import Chip8.Proofs.Redrawing
import Chip8.Proofs.Scrolling
import Chip8.Proofs.Countdown
import Chip8.Proofs.TickSpacing
import Chip8.Proofs.Transfers
import Chip8.Proofs.FlagArithmetic
import Chip8.Proofs.Waiting
import Chip8.Proofs.RandomBytes
import Chip8.Proofs.HexLayout
