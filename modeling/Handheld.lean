import Handheld.Main
import Handheld.Proofs.Board.DecimalCalculation
import Handheld.Proofs.Board.Nesting
import Handheld.Proofs.Board.Overlay
import Handheld.Proofs.Board.Requests
import Handheld.Proofs.Bus.ObjectTransfer
import Handheld.Proofs.Bus.ReadOverWrite
import Handheld.Proofs.Cartridge.Banking
import Handheld.Proofs.Cartridge.ExternalRam
import Handheld.Proofs.Cartridge.ReadBounds
import Handheld.Proofs.FrameRuns
import Handheld.Proofs.Manual.Execution
import Handheld.Proofs.Masking
import Handheld.Proofs.ReservedBits
import Handheld.Proofs.Reset
import Handheld.Proofs.Showing
import Handheld.Proofs.Stop
import Handheld.Proofs.Strictness
import Handheld.Proofs.Timekeeping
import Handheld.Proofs.Timer.ClosedForm
import Handheld.Proofs.Timer.SpeedLimit
import Handheld.Proofs.Video.Coincidence
import Handheld.Proofs.Video.InterruptTimes
import Handheld.Proofs.Video.Objects
