import Handheld.Proofs.Board.Pace

/-! A processor asleep. Halted, with no interrupt enabled, it idles through every step and
touches nothing on the bus.
-/

namespace Handheld.Board

/-- The processor is halted for good: no interrupt is enabled to wake it. -/
structure Asleep (board : Board) : Prop where
  halted : board.cpu.halted
  notStopped : board.cpu.stopped = false
  noEnables : board.bus.enables = 0
  leftBoot : board.bus.boot.mapped = false

/-- With nothing enabled no interrupt is next. -/
theorem nextInterrupt?_of_noEnables {board : Board} (noEnables : board.bus.enables = 0)
    : nextInterrupt? board = none := by
  rw [nextInterrupt?, noEnables, Interrupt.pending, UInt8.and_zero, UInt8.zero_and]
  rfl

variable {probed : Probed}

/-- A processor asleep spends one machine cycle on an execution. -/
theorem Asleep.execute (asleep : probed.board.Asleep)
    : ∃ after,
        Board.execute probed = .ok 1 after
        ∧ after.board.Asleep
        ∧ after.events = probed.events := by
  obtain ⟨⟨cpu, bus⟩, events⟩ := probed
  obtain ⟨halted, notStopped, noEnables, leftBoot⟩ := asleep
  refine ⟨⟨⟨countCycles 1 cpu, bus.runTimer 1⟩, events⟩, ?_,
    ⟨halted, notStopped, noEnables, leftBoot⟩, rfl⟩
  change (if cpu.stopped then _ else continueUnlessHalted) (⟨⟨cpu, bus⟩, events⟩ : Probed) = _
  rw [if_neg (by simpa using notStopped)]
  change (if cpu.halted then finish 1 else executeNext) (⟨⟨cpu, bus⟩, events⟩ : Probed) = _
  rw [if_pos halted]
  rfl

/-- It admits no interrupt. -/
theorem Asleep.admitInterrupt (asleep : probed.board.Asleep)
    : Board.admitInterrupt probed = .ok 0 probed := by
  have looked : inspect nextInterrupt? probed = .ok none probed := by
    change EStateM.Result.ok (nextInterrupt? probed.board) probed = .ok none probed
    rw [nextInterrupt?_of_noEnables asleep.noEnables]
  exact Act.bind_of_ok looked _

/-- So a step takes four clocks and shows nothing to a probe. -/
theorem Asleep.step (asleep : probed.board.Asleep)
    : ∃ after,
        Board.step probed = .ok 4 after
        ∧ after.board.Asleep
        ∧ after.events = probed.events := by
  obtain ⟨middle, executed, slept, same⟩ := asleep.execute
  refine ⟨_, (Act.bind_of_ok executed _).trans (Act.bind_of_ok slept.admitInterrupt _), ?_, same⟩
  change (leaveBoot { middle.board with bus := (middle.board.bus.runVideo 4).1 }).Asleep
  rw [leaveBoot, if_neg (by simp [Bus.runVideo, slept.leftBoot])]
  exact ⟨slept.halted, slept.notStopped, slept.noEnables, slept.leftBoot⟩

/-- So does a run, by induction on the steps it may take. -/
theorem Asleep.runUntil (asleep : probed.board.Asleep) (goal steps elapsed : Nat)
    : ∃ total after,
        Board.runUntil goal steps elapsed probed = .ok total after
        ∧ after.board.Asleep
        ∧ after.events = probed.events := by
  induction steps generalizing elapsed probed with
  | zero => exact ⟨elapsed, probed, rfl, asleep, rfl⟩
  | succ steps ih =>
      unfold Board.runUntil
      split
      · obtain ⟨middle, stepped, slept, same⟩ := asleep.step
        obtain ⟨total, after, ran, still, rest⟩ := ih slept (elapsed + 4)
        exact ⟨total, after, (Act.bind_of_ok stepped _).trans ran, still, rest.trans same⟩
      · exact ⟨elapsed, probed, rfl, asleep, rfl⟩

end Handheld.Board
