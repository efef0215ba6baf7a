import Handheld.Proofs.Board.Calls
import Handheld.Proofs.Board.Phases
import Handheld.Proofs.FramePace

/-! The clocks of a frame. A frame is a loop of steps that ends as soon as its clocks have elapsed,
which takes a limited number of steps. What the last step runs over is less than one step may take,
and the next frame begins with it, so that nothing is lost or gained over many frames.
-/

namespace Handheld

namespace Board

-----------------------------------------------------------------------------------------
-- The loop of steps
-----------------------------------------------------------------------------------------

/-- A loop of steps that goes on until some clocks have elapsed, however many steps that takes: the
clocks of the steps that succeed, and how the loop ends.
-/
inductive Loops (goal : Nat)
    : Nat → Board → List Nat → EStateM.Result Fault Board Nat → Prop where
  | reached {elapsed board} (enough : goal ≤ elapsed)
    : Loops goal elapsed board [] (.ok elapsed board)
  | failed {elapsed board fault after} (short : elapsed < goal)
    (stepped : step board = .error fault after)
    : Loops goal elapsed board [] (.error fault after)
  | next {elapsed board clocks middle rest outcome} (short : elapsed < goal)
    (stepped : step board = .ok clocks middle)
    (loops : Loops goal (elapsed + clocks) middle rest outcome)
    : Loops goal elapsed board (clocks :: rest) outcome

/-- A run that may take enough steps is the loop, by induction on the steps: each of them takes at
least four clocks.
-/
theorem loops_runUntil {goal steps elapsed : Nat} (enough : goal ≤ elapsed + 4 * steps)
    (board : Board)
    : ∃ clocks, Loops goal elapsed board clocks (runUntil goal steps elapsed board) := by
  induction steps generalizing elapsed board with
  | zero => exact ⟨[], .reached enough⟩
  | succ steps ih =>
      unfold runUntil
      split
      case isFalse reached => exact ⟨[], .reached (Nat.le_of_not_lt reached)⟩
      case isTrue short =>
        cases stepped : step board with
        | error fault after =>
            rw [Act.bind_of_error stepped]
            exact ⟨[], .failed short stepped⟩
        | ok clocks middle =>
            rw [Act.bind_of_ok stepped]
            obtain ⟨least, -, -⟩ := clocks_of_step stepped
            have further : goal ≤ elapsed + clocks + 4 * steps := by omega
            obtain ⟨rest, loops⟩ := ih further middle
            exact ⟨clocks :: rest, .next short stepped loops⟩

variable {goal elapsed : Nat} {board after : Board} {clocks : List Nat}

/-- A loop that succeeds has taken steps whose clocks reach the goal. -/
theorem Loops.ok {total : Nat} (loops : Loops goal elapsed board clocks (.ok total after))
    : steps clocks.length board = .ok clocks after
      ∧ total = elapsed + clocks.sum
      ∧ goal ≤ total := by
  generalize ended : EStateM.Result.ok total after = outcome at loops
  induction loops with
  | reached enough =>
      cases ended
      exact ⟨rfl, rfl, enough⟩
  | failed short stepped => cases ended
  | next short stepped loops ih =>
      obtain ⟨ran, counted, enough⟩ := ih ended
      refine ⟨steps_succ_of_ok stepped ran, ?_, enough⟩
      rw [counted, List.sum_cons, Nat.add_assoc]

/-- A loop that fails has taken steps whose clocks fall short of the goal, and the next one fails.
-/
theorem Loops.error {fault : Fault} (loops : Loops goal elapsed board clocks (.error fault after))
    : ∃ middle,
        steps clocks.length board = .ok clocks middle
        ∧ step middle = .error fault after
        ∧ elapsed + clocks.sum < goal := by
  generalize ended : EStateM.Result.error fault after = outcome at loops
  induction loops with
  | reached enough => cases ended
  | failed short stepped =>
      cases ended
      exact ⟨_, rfl, stepped, short⟩
  | next short stepped loops ih =>
      obtain ⟨middle, ran, failed, counted⟩ := ih ended
      refine ⟨middle, steps_succ_of_ok stepped ran, failed, ?_⟩
      rwa [List.sum_cons, ← Nat.add_assoc]

/-- A loop that fails in its first step ends with it. -/
theorem Loops.ends {outcome : EStateM.Result Fault Board Nat} {fault : Fault}
    (loops : Loops goal elapsed board clocks outcome) (short : elapsed < goal)
    (failed : step board = .error fault after)
    : outcome = .error fault after := by
  cases loops with
  | reached enough => exact absurd enough (Nat.not_le_of_lt short)
  | failed _ stepped =>
      rw [failed] at stepped
      cases stepped
      rfl
  | next _ stepped =>
      rw [failed] at stepped
      cases stepped

/-- Before its last step a loop has not reached the goal, so it takes few steps. -/
theorem Loops.few {outcome : EStateM.Result Fault Board Nat}
    (loops : Loops goal elapsed board clocks outcome)
    : 4 * clocks.length < goal - elapsed + 4 := by
  induction loops with
  | reached enough => exact Nat.succ_pos _
  | failed short stepped => exact Nat.succ_pos _
  | next short stepped loops ih =>
      obtain ⟨least, -, -⟩ := clocks_of_step stepped
      rw [List.length_cons]
      omega

/-- Steps take at least four clocks each, by induction on them. -/
theorem four_mul_length_le {count : Nat} (ran : steps count board = .ok clocks after)
    : 4 * clocks.length ≤ clocks.sum := by
  induction count generalizing board clocks with
  | zero =>
      cases ran
      exact Nat.le_refl 0
  | succ count ih =>
      obtain ⟨_, _, _, stepped, remaining, rfl⟩ := steps_succ_ok ran
      obtain ⟨least, -, -⟩ := clocks_of_step stepped
      have others := ih remaining
      rw [List.length_cons, List.sum_cons]
      omega

end Board

namespace Machine

-----------------------------------------------------------------------------------------
-- One frame
-----------------------------------------------------------------------------------------

/-- Less than one step has run over, in whole machine cycles. -/
structure SlightlyOver (machine : Machine) : Prop where
  cycles : 4 ∣ machine.overrun
  little : machine.overrun ≤ 40

variable {machine : Machine}

/-- A frame has enough steps for the loop that it runs. -/
theorem clocksPerFrame_le (elapsed : Nat)
    : clocksPerFrame ≤ elapsed + 4 * stepsPerFrame := by
  unfold stepsPerFrame clocksPerFrame Board.clocksPerCycle
  omega

/-- A frame that succeeds ends slightly over again. Its steps take its clocks, less what had run
over before and more what runs over now.
-/
theorem SlightlyOver.frame_ok {after : Machine} (slightly : machine.SlightlyOver)
    (ran : advanceFrame machine = .ok () after)
    : after.SlightlyOver
      ∧ ∃ clocks,
          Board.Loops clocksPerFrame machine.overrun machine.board clocks
            (.ok (clocksPerFrame + after.overrun) after.board)
          ∧ clocks.sum + machine.overrun = clocksPerFrame + after.overrun := by
  obtain ⟨total, elapsed, beyond⟩ := advanceFrame_ok ran
  have little := slightly.little
  obtain ⟨least, most, cycles⟩ :=
    Board.total_of_runUntil elapsed (by decide) slightly.cycles (by omega) (clocksPerFrame_le _)
  have whole : 4 ∣ clocksPerFrame := by decide
  obtain ⟨clocks, loops⟩ := Board.loops_runUntil (clocksPerFrame_le machine.overrun) machine.board
  rw [elapsed] at loops
  obtain ⟨-, counted, -⟩ := loops.ok
  have reached : total = clocksPerFrame + after.overrun := by omega
  rw [reached] at loops counted
  exact ⟨⟨by omega, by omega⟩, clocks, loops, by omega⟩

/-- A frame that fails is a loop that fails, and what had run over before stays as it was. -/
theorem frame_error {after : Machine} {fault : Fault}
    (ran : advanceFrame machine = .error fault after)
    : after.overrun = machine.overrun
      ∧ ∃ clocks,
          Board.Loops clocksPerFrame machine.overrun machine.board clocks
            (.error fault after.board) := by
  obtain ⟨clocks, loops⟩ := Board.loops_runUntil (clocksPerFrame_le machine.overrun) machine.board
  unfold advanceFrame at ran
  dsimp only at ran
  split at ran
  · cases ran
  · cases ran
    rename_i failed
    rw [failed] at loops
    exact ⟨rfl, clocks, loops⟩

-----------------------------------------------------------------------------------------
-- Frame after frame
-----------------------------------------------------------------------------------------

/-- Over some frames the overshoot does not add up: their steps take the clocks of all frames, less
what had run over at first and more what runs over in the end. Induction on the frames.
-/
theorem SlightlyOver.frames_ok {after : Machine} {frames : Nat} (slightly : machine.SlightlyOver)
    (ran : advanceFrames frames machine = .ok () after)
    : after.SlightlyOver
      ∧ ∃ clocks,
          Board.steps clocks.length machine.board = .ok clocks after.board
          ∧ clocks.sum + machine.overrun = frames * clocksPerFrame + after.overrun := by
  induction frames generalizing machine with
  | zero =>
      cases ran
      exact ⟨slightly, [], rfl, by simp⟩
  | succ frames ih =>
      obtain ⟨_, middle, first, rest⟩ := Act.ok_of_bind ran
      obtain ⟨next, clocks, loops, counted⟩ := slightly.frame_ok first
      obtain ⟨last, more, remaining, total⟩ := ih next rest
      refine ⟨last, clocks ++ more, ?_, ?_⟩
      · rw [List.length_append]
        exact Board.steps_append loops.ok.1 remaining
      · rw [List.sum_append, Nat.succ_mul]
        omega

-----------------------------------------------------------------------------------------
-- The budget
-----------------------------------------------------------------------------------------

/-- A frame keeps to its budget. With less than one step run over before, the loop of steps ends
after 17556 steps at most. If no step fails, their clocks are those of a frame, less what had run
over before and more what runs over now, and that is again less than one step. If one fails, so does
the frame, and what had run over stays as it was. Over any number of frames nothing adds up: a
machine with which nothing had run over takes the clocks of all frames and what runs over in the
end.
-/
theorem frame_within_budget (cycles : 4 ∣ machine.overrun) (little : machine.overrun ≤ 40)
    : ((∃ clocks after,
          advanceFrame machine = .ok () after
          ∧ Board.Loops 70224 machine.overrun machine.board clocks
            (.ok (70224 + after.overrun) after.board)
          ∧ clocks.length ≤ 17556
          ∧ clocks.sum + machine.overrun = 70224 + after.overrun
          ∧ 4 ∣ after.overrun
          ∧ after.overrun ≤ 40)
        ∨ ∃ clocks fault after,
            advanceFrame machine = .error fault after
            ∧ Board.Loops 70224 machine.overrun machine.board clocks (.error fault after.board)
            ∧ clocks.length + 1 ≤ 17556
            ∧ after.overrun = machine.overrun)
      ∧ ∀ frames after,
          advanceFrames frames machine = .ok () after
          → ∃ clocks,
              Board.steps clocks.length machine.board = .ok clocks after.board
              ∧ clocks.sum + machine.overrun = 70224 * frames + after.overrun
              ∧ 4 ∣ after.overrun
              ∧ after.overrun ≤ 40 := by
  have slightly : machine.SlightlyOver := ⟨cycles, little⟩
  constructor
  · cases ran : advanceFrame machine with
    | ok _ after =>
        obtain ⟨still, clocks, loops, counted⟩ := slightly.frame_ok ran
        have few := loops.few
        unfold clocksPerFrame at few
        exact .inl ⟨clocks, after, rfl, loops, by omega, counted, still.cycles, still.little⟩
    | error fault after =>
        obtain ⟨same, clocks, loops⟩ := frame_error ran
        obtain ⟨_, taken, -, short⟩ := loops.error
        have least := Board.four_mul_length_le taken
        unfold clocksPerFrame at short
        exact .inr ⟨clocks, fault, after, rfl, loops, by omega, same⟩
  · intro frames after ran
    obtain ⟨still, clocks, taken, counted⟩ := slightly.frames_ok ran
    rw [Nat.mul_comm] at counted
    exact ⟨clocks, taken, counted, still.cycles, still.little⟩

/-- A machine over by nine machine cycles whose next byte is no instruction. -/
def stuck : Machine :=
  { (inHighMemory (.initial .strict)).after [.write 0xFF80 0xDD] with overrun := 36 }

theorem step_stuck
    : ∃ after, Board.step stuck.board = .error (.undefinedOpcode 0xDD 0xFF80) after :=
  ⟨_, rfl⟩

/-- Sixty frames of a new machine that halts take all their clocks. A machine that is stuck fails at
once and is as much over as before.
-/
theorem frame_within_budget_halting
    : (∃ clocks after,
        advanceFrames 60 (new.insert .halting) = .ok () after
        ∧ Board.steps clocks.length (new.insert .halting).board = .ok clocks after.board
        ∧ clocks.sum = 70224 * 60 + after.overrun
        ∧ after.overrun ≤ 40)
      ∧ ∃ after,
          advanceFrame stuck = .error (.undefinedOpcode 0xDD 0xFF80) after
          ∧ after.overrun = 36 := by
  constructor
  · have cycles : 4 ∣ (new.insert .halting).overrun := by decide
    obtain ⟨after, ran, -⟩ := dozes_halting.advanceFrames 60
    obtain ⟨clocks, taken, counted, -, little⟩ :=
      (frame_within_budget cycles (by decide)).2 60 after ran
    exact ⟨clocks, after, ran, taken, counted, little⟩
  · have cycles : 4 ∣ stuck.overrun := by decide
    obtain ⟨_, first⟩ := step_stuck
    rcases (frame_within_budget cycles (by decide)).1 with
      ⟨_, _, -, loops, -⟩ | ⟨_, _, after, ran, loops, -, same⟩
    · cases loops.ends (by decide) first
    · cases loops.ends (by decide) first
      exact ⟨after, ran, same⟩

end Machine

end Handheld
