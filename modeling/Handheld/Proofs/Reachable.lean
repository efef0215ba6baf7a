import Handheld.Proofs.Board.Calls
import Handheld.Proofs.Bus.Divider
import Handheld.Proofs.Video.Position

/-! The machines that can come about. Whatever a machine went through, its video unit stands within
a frame and its divider within a turn.
-/

namespace Handheld

/-- The video unit stands within a frame, and the divider within its turn. -/
structure Bus.Regular (bus : Bus) : Prop where
  video : bus.video.Placed
  divider : bus.timer.divider < Timer.dividerTurn

/-- A write leaves the bus regular: it acts on the video unit by operations, and on the divider
by starting it anew at most.
-/
theorem Bus.Regular.write {bus : Bus} (regular : bus.Regular) (address : UInt16) (value : UInt8)
    : ((Bus.write address value).endsIn bus).Regular := by
  refine ⟨?_, ?_⟩
  · obtain ⟨actions, ended, -⟩ := bus.video_write address value
    rw [ended]
    exact Video.performAll_preserves Video.Placed
      (fun action _ _ placed => placed.perform action) regular.video
  · by_cases divider : address = 0xFF04
    · subst divider
      exact Nat.zero_lt_succ _
    · rw [bus.divider_write_of_ne divider]
      exact regular.divider

theorem Bus.Regular.runTimer {bus : Bus} (regular : bus.Regular) (cycles : Nat)
    : (bus.runTimer cycles).Regular := by
  refine ⟨regular.video, ?_⟩
  rw [bus.divider_runTimer]
  exact Nat.mod_lt _ (Nat.zero_lt_succ _)

/-- So does everything else of which a step consists. -/
theorem Probed.regular_keptByStep
    : KeptByStep fun bus _ => bus.Regular where
  instruction _ regular := regular
  noting := by
    intro before after _ noting regular
    obtain ⟨noted, rfl⟩ := noting
    exact ⟨regular.video, regular.divider⟩
  write address value regular := regular.write address value
  resetDivider regular := ⟨regular.video, Nat.zero_lt_succ _⟩
  runTimer cycles regular := regular.runTimer cycles
  acknowledge _ regular := ⟨regular.video, regular.divider⟩
  runVideo {bus _} clocks regular := ⟨regular.video.advance clocks bus.requests, regular.divider⟩
  unmapBoot regular := ⟨regular.video, regular.divider⟩

namespace Machine

/-- The machines that come about from a new one: by what is asked of it, by frames, by operations
on its video unit and time for its timer, and by any change that leaves the video unit and the
divider alone, such as another cartridge, a pressed key or a register set from outside.
-/
inductive Reachable : Machine → Prop where
  | ofSetup (setup : MachineSetup) : Reachable (ofSetup setup)
  | call {machine : Machine} (call : Board.Call)
    : Reachable machine → Reachable (machine.after [call])
  | frame {machine : Machine} : Reachable machine → Reachable (advanceFrame.endsIn machine)
  | video {machine : Machine} (action : Video.Action)
    : Reachable machine
      → Reachable
        (machine.withBus
          { machine.board.bus with video := machine.board.bus.video.perform action })
  | timer {machine : Machine} (cycles : Nat)
    : Reachable machine → Reachable (machine.withBus (machine.board.bus.runTimer cycles))
  | elsewhere {machine other : Machine}
    : Reachable machine
      → other.board.bus.video = machine.board.bus.video
      → other.board.bus.timer.divider = machine.board.bus.timer.divider
      → Reachable other

/-- Calls one after another lead on from a reachable machine, by induction on them. -/
theorem Reachable.calls {machine : Machine} (reachable : machine.Reachable)
    (calls : List Board.Call)
    : (machine.after calls).Reachable := by
  induction calls generalizing machine with
  | nil => exact reachable
  | cons call rest ih => exact ih (reachable.call call)

theorem regular_ofSetup (setup : MachineSetup)
    : (ofSetup setup).board.bus.Regular := by
  obtain ⟨policy, bootCode⟩ := setup
  cases bootCode with
  | none => exact ⟨Video.placed_initial.perform .boot, Nat.zero_lt_succ _⟩
  | some code => exact ⟨Video.placed_initial, Nat.zero_lt_succ _⟩

/-- A frame ends with the board on which its run ends, whether or not it fails. -/
theorem board_advanceFrame (machine : Machine)
    : (advanceFrame.endsIn machine).board
      = (Board.runUntil clocksPerFrame stepsPerFrame machine.overrun).endsIn machine.board := by
  unfold Act.endsIn advanceFrame
  dsimp only
  cases Board.runUntil clocksPerFrame stepsPerFrame machine.overrun machine.board <;> rfl

/-- Every reachable machine is regular, by induction on how it came about. -/
theorem Reachable.regular {machine : Machine} (reachable : machine.Reachable)
    : machine.board.bus.Regular := by
  have kept := Probed.regular_keptByStep
  induction reachable with
  | ofSetup setup => exact regular_ofSetup setup
  | @call machine call _ ih =>
      change (call.act.endsIn machine.board).bus.Regular
      rw [Probed.endsIn_of_besideBoard (Probed.besideBoard_keepsCalls.call call)]
      exact (kept.keepsCalls.call call).invariant ih
  | @frame machine _ ih =>
      rw [board_advanceFrame,
        Probed.endsIn_of_besideBoard (Probed.besideBoard_keepsStep.runUntil _ _ _)]
      exact (kept.keepsStep.runUntil _ _ _).invariant ih
  | video action _ ih => exact ⟨ih.video.perform action, ih.divider⟩
  | timer cycles _ ih => exact ih.runTimer cycles
  | elsewhere _ video divider ih => exact ⟨video ▸ ih.video, divider ▸ ih.divider⟩

end Machine

end Handheld
