import Handheld.Board.Dispatch

/-! One step of the whole board: an instruction, the interrupt it may let in, and the video
unit running for the clocks that these took.
-/

namespace Handheld.Board

variable {State : Type} [Housing State]

def clocksPerCycle : Nat :=
  4

/-- Where start-up code hands over to the cartridge. -/
def cartridgeEntry : UInt16 :=
  0x0100

/-- The board with start-up code removed once the processor stands at the cartridge's entry.
-/
def leaveBoot (board : Board) : Board :=
  if board.bus.boot.mapped && board.cpu.pc == cartridgeEntry then
    { board with bus := board.bus.unmapBoot }
  else board

/-- One step. The result is the clocks taken. -/
def step : Act State Nat := do
  let spent ← execute
  let serving ← admitInterrupt
  let clocks := (spent + serving) * clocksPerCycle
  modifyBus fun bus => (bus.runVideo clocks).1
  alter leaveBoot
  pure clocks

/-- Steps until some clocks have elapsed, counting those already elapsed, but no more steps
than given. The result is the clocks elapsed.
-/
def runUntil (goal : Nat) : (steps elapsed : Nat) → Act State Nat
  | 0, elapsed => pure elapsed
  | steps + 1, elapsed =>
      if elapsed < goal then do
        let clocks ← step
        runUntil goal steps (elapsed + clocks)
      else pure elapsed

end Handheld.Board
