import Handheld.Interrupt
import Handheld.Video.Scanline

/-! The passage of time in the video unit. Each mode lasts a fixed number of clocks; leaving
it scans, draws or moves to the next line, and may ask for interrupts.
-/

namespace Handheld.Video

/-- The video unit under way, with the interrupt requests as they stand. -/
structure Sweep where
  video : Video
  requests : UInt8
  /-- Whether a picture was completed on the way. -/
  frameDone : Bool

namespace Sweep

/-- The sweep with a status interrupt requested when a status bit is enabled. -/
def requestStatus (sweep : Sweep) (enabled : Bool) : Sweep :=
  { sweep with requests := Interrupt.lcdStatus.raiseIf enabled sweep.requests }

def compareLine (sweep : Sweep) : Sweep :=
  let agree := sweep.video.linesMatch
  { sweep with video := { sweep.video with coincidence := agree } }.requestStatus
    (agree && sweep.video.status &&& 0x40 != 0)

def enter (sweep : Sweep) (mode : Mode) : Sweep :=
  { sweep with video := { sweep.video with mode } }.requestStatus
    (sweep.video.status &&& mode.statusSource != 0)

/-- The sweep on another line, with the line registers compared. -/
def moveTo (sweep : Sweep) (line : UInt8) : Sweep :=
  { sweep with video := { sweep.video with line } }.compareLine

/-- The sweep with the finished picture set aside and announced. -/
def completeFrame (sweep : Sweep) : Sweep :=
  let video := sweep.video
  { video :=
      { video with
        completed := video.drawing, frameReady := true, frames := video.frames + 1 }
    requests := sweep.requests ||| Interrupt.vblank.mask
    frameDone := true }

/-- The sweep after the current mode has run its time. -/
def leaveMode (sweep : Sweep) : Sweep :=
  match sweep.video.mode with
  | .oamScan => { sweep with video := sweep.video.scanObjects }.enter .transfer
  | .transfer => { sweep with video := sweep.video.drawLine }.enter .hblank
  | .hblank =>
      let sweep := sweep.moveTo (sweep.video.line + 1)
      if sweep.video.line = 144 then sweep.completeFrame.enter .vblank
      else sweep.enter .oamScan
  | .vblank =>
      if sweep.video.line = 153 then
        ({ sweep with video := { sweep.video with windowLine := 0 } }.moveTo 0).enter .oamScan
      else sweep.moveTo (sweep.video.line + 1)

/-- The sweep with the clocks of the current mode used up. -/
def spend (sweep : Sweep) : Sweep :=
  { sweep with
    video := { sweep.video with clock := sweep.video.clock - sweep.video.mode.duration } }

/-- Drawing a line takes no clocks of its own. -/
@[simp]
theorem clock_drawLine (video : Video)
    : video.drawLine.clock = video.clock := by
  unfold drawLine
  split
  · split <;> rfl
  · rfl

/-- Leaving a mode takes no clocks of its own. -/
@[simp]
theorem clock_leaveMode (sweep : Sweep)
    : sweep.leaveMode.video.clock = sweep.video.clock := by
  unfold leaveMode
  split
  · rfl
  · exact clock_drawLine sweep.video
  · dsimp only
    split <;> rfl
  · split <;> rfl

/-- The sweep once no further mode can be left with the clocks at hand. -/
def settle (sweep : Sweep) : Sweep :=
  if sweep.video.clock < sweep.video.mode.duration then sweep
  else sweep.spend.leaveMode.settle
termination_by sweep.video.clock
decreasing_by
  have hd := sweep.video.mode.duration_pos
  simp only [clock_leaveMode, spend]
  omega

end Sweep

/-- The video unit after some clocks, with the interrupt requests. While the display is off
the position stays at the start of a frame. The clocks are added to those of the current mode in a
counter of 32 bits, so what is said of any number of clocks is meant for those that fit there.
-/
def advance (video : Video) (clocks : Nat) (requests : UInt8) : Sweep :=
  if video.lcdOn then
    Sweep.settle
      { video := { video with clock := video.clock + clocks }, requests, frameDone := false }
  else
    { video := { video with mode := .hblank, line := 0, clock := 0, windowLine := 0 }
      requests
      frameDone := false }

end Handheld.Video
