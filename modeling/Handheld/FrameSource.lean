import Handheld.Machine
import Handheld.Mailbox

/-! Running a machine frame by frame and publishing each frame. -/

namespace Handheld

/-- A machine with the mailbox its frames go to. -/
structure FrameSource where
  machine : Machine
  mailbox : Mailbox Frame
  /-- Whether a shutdown was requested. -/
  shutdown : Bool
  /-- How many frames a run lasts, if it ends by itself. -/
  maxFrames : Option Nat

namespace FrameSource

/-- More frames than a run without a limit is counted for. -/
def frameCounterLimit : Nat :=
  UInt64.size

/-- One frame run, acknowledged and published. A machine whose display is off publishes its
last picture again.
-/
def publishFrame : Act FrameSource Unit := fun { machine, mailbox, shutdown, maxFrames } =>
  match Machine.advanceFrame machine with
  | .ok _ machine =>
      let machine := machine.acknowledgeFrame
      .ok ()
        { machine, mailbox := mailbox.publish machine.completedFrame, shutdown, maxFrames }
  | .error fault machine => .error fault { machine, mailbox, shutdown, maxFrames }

/-- At most some frames, until a shutdown is requested. The result counts the frames
published, on top of those published before.
-/
def runFrames : (limit published : Nat) → Act FrameSource Nat
  | 0, published => pure published
  | limit + 1, published => do
      if (← get).shutdown then pure published
      else
        publishFrame
        runFrames limit (published + 1)

/-- A run: frames until the limit or a shutdown. The result is the number published. -/
def run : Act FrameSource Nat := do
  runFrames ((← get).maxFrames.getD frameCounterLimit) 0

end FrameSource

end Handheld
