import Handheld.FrameSource

/-! A whole run without a display: the machine runs, the frames go through the mailbox, and
the newest one is kept.
-/

namespace Handheld

/-- A viewer that only keeps the newest frame. -/
structure LatestFrame where
  frame : Option Frame
  /-- How many frames were viewed. -/
  viewed : Nat

namespace LatestFrame

def initial : LatestFrame :=
  { frame := none, viewed := 0 }

/-- The viewer after one more frame. It never asks for a shutdown. -/
def view (latest : LatestFrame) (frame : Frame) : LatestFrame × Bool :=
  ({ frame := some frame, viewed := latest.viewed + 1 }, false)

/-- The viewer after it looks once for a frame that still waits. -/
def collect (latest : LatestFrame) (mailbox : Mailbox Frame) : LatestFrame :=
  match mailbox.receive.2 with
  | .item frame => (latest.view frame).1
  | .empty | .disconnected => latest

end LatestFrame

/-- The outcome of a run. -/
structure Playback where
  /-- Frames published. -/
  frames : Nat
  latest : LatestFrame

/-- A run to its end. The end of the source requests the shutdown of the viewer, which then
collects the frame that still waits.
-/
def Playback.ofSource (source : FrameSource) : Except Fault Playback :=
  match FrameSource.run.run source with
  | .error fault _ => .error fault
  | .ok frames source =>
      let shown := source.mailbox.close.viewAll true LatestFrame.view .initial
      .ok { frames, latest := shown.state.collect shown.mailbox }

end Handheld
