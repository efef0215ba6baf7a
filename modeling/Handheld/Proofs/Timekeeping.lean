import Handheld.Proofs.Board.Phases
import Handheld.Proofs.Reachable

/-! One time for all units. However long a machine runs, through instructions, dispatches and idle
cycles, processor, divider and video unit have counted the same clocks.
-/

namespace Handheld.Machine

open Board

/-- A step leads from a reachable machine to a reachable one. -/
theorem Reachable.step {board after : Board} {overrun clocks : Nat}
    (reachable : Reachable ⟨board, overrun⟩) (stepped : Board.step board = .ok clocks after)
    : Reachable ⟨after, overrun⟩ := by
  have ended : (Call.step.act : Act Board Answer).endsIn board = after := by
    change Act.endsIn (Board.step >>= _) board = after
    rw [Act.endsIn_bind, stepped]
    rfl
  have next := reachable.call .step
  rw [Machine.after, Board.after, Board.after, ended] at next
  exact next

/-- So do some steps, by induction on them. -/
theorem Reachable.steps {board after : Board} {overrun count : Nat} {clocks : List Nat}
    (reachable : Reachable ⟨board, overrun⟩) (ran : Board.steps count board = .ok clocks after)
    : Reachable ⟨after, overrun⟩ := by
  induction count generalizing board clocks with
  | zero =>
      cases ran
      exact reachable
  | succ count ih =>
      obtain ⟨_, _, _, stepped, remaining, -⟩ := steps_succ_ok ran
      exact ih (reachable.step stepped) remaining

/-- What a reader of the divider's register sees. -/
theorem peek_divider (bus : Bus) (turning : bus.timer.divider < Timer.dividerTurn)
    : ∃ value, bus.peek 0xFF04 = .ok value ∧ value.toNat = bus.timer.divider / 64 := by
  refine ⟨bus.timer.dividerByte, rfl, ?_⟩
  unfold Timer.dividerTurn Timer.dividerStep at turning
  rw [Timer.dividerByte, Timer.dividerStep, UInt8.toNat_ofNat']
  omega

/-- Processor, divider and video unit never drift apart. In a run of steps that succeed from a
reachable machine the clocks of the steps are four for every machine cycle that the processor
counted. The divider has moved on by as many machine cycles unless it was restarted; if it was,
it has counted those of the phase that restarted it last and of all phases since. As long as the
display is on, the video unit has moved on by the clocks of the steps.
-/
theorem keeps_time {machine : Machine} (reachable : machine.Reachable) {count : Nat}
    {clocks : List Nat} {after : Board} (ran : steps count machine.board = .ok clocks after)
    : 4 * after.cpu.cycles = 4 * machine.board.cpu.cycles + clocks.sum
      ∧ after.cpu.cycles = machine.board.cpu.cycles + spentCycles (phases count machine.board)
      ∧ (∃ value,
        after.bus.peek 0xFF04 = .ok value ∧ value.toNat = after.bus.timer.divider / 64)
      ∧ ((∀ phase ∈ phases count machine.board, ¬phase.RestartsDivider)
        → after.bus.timer.divider
          = (machine.board.bus.timer.divider + spentCycles (phases count machine.board)) % 16384)
      ∧ (∀ earlier phase since,
        phases count machine.board = earlier ++ phase :: since
        → phase.RestartsDivider
        → (∀ later ∈ since, ¬later.RestartsDivider)
        → after.bus.timer.divider = (phase.cycles + spentCycles since) % 16384)
      ∧ (machine.board.bus.video.lcdOn
        → ¬SwitchesOff ((phases count machine.board).flatMap (·.events))
        → after.bus.video.position
          = (machine.board.bus.video.position + clocks.sum) % 70224) := by
  obtain ⟨spends, total⟩ := spendsAll_of_steps ran
  have cycles := spends.cycles
  have turning : after.bus.timer.divider < Timer.dividerTurn :=
    (reachable.steps ran).regular.divider
  have whole : after.bus.timer.divider % Timer.dividerTurn = after.bus.timer.divider :=
    Nat.mod_eq_of_lt turning
  refine ⟨by omega, cycles, peek_divider after.bus turning, ?_, ?_, ?_⟩
  · intro calm
    exact whole.symm.trans (spends.divided calm)
  · intro earlier phase since split restarts calm
    rw [split] at spends
    exact whole.symm.trans (spends.restarted restarts calm)
  · intro on kept
    have settled := reachable.regular.video.settled on
    exact settled.position_eq (settled_of_steps ran kept settled)

/-- A machine that runs a store to the divider's register. -/
def storingDivider : Machine :=
  (inHighMemory (.initial .strict)).after [.write 0xFF80 0xE0, .write 0xFF81 0x04]

/-- The store takes three machine cycles, which the divider counts before it goes on. With the
display on, the video unit counts the clocks of an instruction.
-/
theorem keeps_time_inHighMemory
    : (∃ after,
        steps 2 storingDivider.board = .ok [12, 4] after
        ∧ after.cpu.cycles = 4
        ∧ after.bus.timer.divider = 4)
      ∧ ∃ after,
        steps 1 (inHighMemory new.board.bus).board = .ok [4] after
        ∧ after.bus.timer.divider = 1
        ∧ after.bus.video.position = 4 := by
  constructor
  · have begun : (inHighMemory (.initial .strict)).Reachable :=
      (Reachable.ofSetup ⟨.strict, some .empty⟩).elsewhere rfl rfl
    have reachable : storingDivider.Reachable :=
      (begun.call (.write 0xFF80 0xE0)).call (.write 0xFF81 0x04)
    have ran : ∃ after, steps 2 storingDivider.board = .ok [12, 4] after := ⟨_, rfl⟩
    have run : phases 2 storingDivider.board
        = [] ++ ⟨3, [.instruction .storeHigh, .write 0xFF04 1]⟩
          :: [⟨0, []⟩, ⟨1, [.instruction .nop]⟩, ⟨0, []⟩] := rfl
    obtain ⟨after, ran⟩ := ran
    obtain ⟨-, cycles, -, -, restarted, -⟩ := keeps_time reachable ran
    have counted : after.cpu.cycles = 4 := by
      rw [cycles, run]
      rfl
    refine ⟨after, ran, counted, restarted _ _ _ run ?_ ?_⟩
    · simp [Phase.RestartsDivider]
    · simp [Phase.RestartsDivider]
  · have reachable : (inHighMemory new.board.bus).Reachable :=
      (Reachable.ofSetup ⟨.strict, none⟩).elsewhere rfl rfl
    have ran : ∃ after, steps 1 (inHighMemory new.board.bus).board = .ok [4] after := ⟨_, rfl⟩
    have run : phases 1 (inHighMemory new.board.bus).board
        = [⟨1, [.instruction .nop]⟩, ⟨0, []⟩] := rfl
    obtain ⟨after, ran⟩ := ran
    obtain ⟨-, -, -, divided, -, placed⟩ := keeps_time reachable ran
    rw [run] at divided placed
    refine ⟨after, ran, divided ?_, placed rfl ?_⟩
    · simp [Phase.RestartsDivider]
    · simp [SwitchesOff]

end Handheld.Machine
