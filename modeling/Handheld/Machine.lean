import Handheld.Board.Step

/-! The machine as a whole: assembly, reset and running for one frame's worth of clocks. -/

namespace Handheld

/-- How a machine is put together. -/
structure MachineSetup where
  policy : AccessPolicy
  /-- Start-up code to run first. Without it the machine starts at the cartridge's entry. -/
  bootCode : Option ByteArray

/-- A board and the clocks that the last frame ran over. -/
structure Machine where
  board : Board
  overrun : Nat

namespace Machine

/-- Clocks in one frame: 154 lines of 456 clocks. -/
def clocksPerFrame : Nat :=
  70224

/-- Steps in one frame at most, since every step takes at least one machine cycle. -/
def stepsPerFrame : Nat :=
  clocksPerFrame / Board.clocksPerCycle

/-- A new machine without a cartridge. -/
def ofSetup (setup : MachineSetup) : Machine :=
  let bus := Bus.initial setup.policy
  let board : Board :=
    match setup.bootCode with
    | some code => { cpu := .powerOn, bus := bus.mapBoot code }
    | none => { cpu := .afterBoot, bus := bus.afterBoot }
  { board, overrun := 0 }

/-- A new machine without start-up code and with strict access to registers. -/
def new : Machine :=
  ofSetup { policy := .strict, bootCode := none }

instance : Inhabited Machine :=
  ⟨new⟩

def withBus (machine : Machine) (bus : Bus) : Machine :=
  { machine with board := { machine.board with bus } }

def insert (machine : Machine) (cartridge : Cartridge) : Machine :=
  machine.withBus (machine.board.bus.insert cartridge)

/-- The machine started anew with its policy and start-up code. The cartridge stays inserted
as it is.
-/
def reset (machine : Machine) : Machine :=
  let bus := machine.board.bus
  let fresh := ofSetup { policy := bus.policy, bootCode := bus.boot.code }
  match bus.cartridge with
  | some cartridge => fresh.insert cartridge
  | none => fresh

/-- One frame's worth of clocks. What runs over is carried into the next frame; a fault
leaves the carry as it was.
-/
def advanceFrame : Act Machine Unit := fun ⟨board, overrun⟩ =>
  match Board.runUntil clocksPerFrame stepsPerFrame overrun board with
  | .ok elapsed board => .ok () ⟨board, elapsed - clocksPerFrame⟩
  | .error fault board => .error fault ⟨board, overrun⟩

def acknowledgeFrame (machine : Machine) : Machine :=
  let bus := machine.board.bus
  machine.withBus { bus with video := bus.video.acknowledgeFrame }

end Machine

/-- A completed picture and its number. -/
structure Frame where
  number : Nat
  picture : Picture

/-- The picture that a machine completed last, with its number. -/
def Machine.completedFrame (machine : Machine) : Frame :=
  { number := machine.board.bus.video.frames, picture := machine.board.bus.video.completed }

/-- The pixel at a position of a frame, if it lies on the screen. -/
def Frame.pixel? (frame : Frame) (x y : Nat) : Option Pixel :=
  frame.picture.pixel? x y

end Handheld
