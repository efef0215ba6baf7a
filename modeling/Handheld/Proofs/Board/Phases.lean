import Handheld.Proofs.Board.Pace
import Handheld.Proofs.Board.Works
import Handheld.Proofs.Bus.Divider
import Handheld.Proofs.Video.Position

/-! A run in phases. A step executes and then admits an interrupt, and each of the two spends its
machine cycles in the processor and in the timer alike. The video unit follows at the end of the
step with the clocks of both.
-/

namespace Handheld.Board

-----------------------------------------------------------------------------------------
-- Phases
-----------------------------------------------------------------------------------------

/-- An execution or an admission: the machine cycles that it took and what was noticed. -/
structure Phase where
  cycles : Nat
  events : List Event

/-- Whether the divider starts anew in a phase, by a write to its register or by a stop. -/
def Phase.RestartsDivider (phase : Phase) : Prop :=
  (∃ value, .write 0xFF04 value ∈ phase.events) ∨ .instruction .stop ∈ phase.events

/-- Some steps. The result is the clocks of each. -/
def steps {State : Type} [Housing State] : (count : Nat) → Act State (List Nat)
  | 0 => pure []
  | count + 1 => do
      let clocks ← step
      let rest ← steps count
      pure (clocks :: rest)

/-- The phases of some steps, two of each, up to the first that fails. -/
def phases : (count : Nat) → Board → List Phase
  | 0, _ => []
  | count + 1, board =>
      match execute board with
      | .error _ _ => []
      | .ok spent middle =>
          { cycles := spent, events := Probed.eventsOf execute board }
            :: match admitInterrupt middle with
              | .error _ _ => []
              | .ok serving _ =>
                  { cycles := serving, events := Probed.eventsOf admitInterrupt middle }
                    :: phases count (step.endsIn board)

/-- A phase leads from one board to another: the processor counts its cycles, and so does the
divider, which may start anew in it.
-/
structure Spends (before : Board) (phase : Phase) (after : Board) : Prop where
  cycles : after.cpu.cycles = before.cpu.cycles + phase.cycles
  restarted
    : phase.RestartsDivider
      → after.bus.timer.divider % Timer.dividerTurn = phase.cycles % Timer.dividerTurn
  divided
    : ¬phase.RestartsDivider
      → after.bus.timer.divider % Timer.dividerTurn
        = (before.bus.timer.divider + phase.cycles) % Timer.dividerTurn

/-- Some phases, one after another, lead from one board to another. -/
inductive SpendsAll : Board → List Phase → Board → Prop where
  | nil {board} : SpendsAll board [] board
  | cons {before phase middle rest after}
    : Spends before phase middle
      → SpendsAll middle rest after
      → SpendsAll before (phase :: rest) after

-----------------------------------------------------------------------------------------
-- One phase
-----------------------------------------------------------------------------------------

/-- What a watcher notices of some work restarts the divider when one of the accesses does. -/
theorem Works.restartsDivider_iff {act : Act Probed Nat} {probed : Probed} {start : Bus}
    {cycles : Nat} {accesses : List Access} {causes : List Event}
    (works : Works act probed start cycles accesses causes)
    : Phase.RestartsDivider ⟨cycles, causes ++ accesses.flatMap eventsOfAccess⟩
      ↔ ∃ access ∈ accesses, access.RestartsDivider := by
  have written (value : UInt8)
      : .write 0xFF04 value ∈ causes ++ accesses.flatMap eventsOfAccess
        ↔ .write 0xFF04 value ∈ accesses := by
    rw [List.mem_append, or_iff_right (works.noWrite _ _), write_mem_events_iff]
  have stopped
      : .instruction .stop ∈ causes ++ accesses.flatMap eventsOfAccess
        ↔ .restartDivider ∈ accesses := by
    rw [List.mem_append, or_iff_left instruction_not_mem_events, works.stop]
  simp only [Phase.RestartsDivider, written, stopped]
  constructor
  · intro restarts
    rcases restarts with ⟨value, member⟩ | member
    · exact ⟨_, member, rfl⟩
    · exact ⟨_, member, trivial⟩
  · intro restarts
    obtain ⟨access, member, restarting⟩ := restarts
    cases access with
    | read _ => exact restarting.elim
    | write address value =>
        cases restarting
        exact .inl ⟨value, member⟩
    | restartDivider => exact .inr member

/-- Work that succeeds spends its cycles. -/
theorem Works.spends {act : Act Probed Nat} {board after : Board} {start : Bus}
    {spent cycles : Nat} {accesses : List Access} {events causes : List Event}
    (works : Works act (.ofBoard board) start cycles accesses causes)
    (same : start.timer = board.bus.timer)
    (ran : act (.ofBoard board) = .ok spent ⟨after, events⟩)
    : Spends board ⟨spent, events⟩ after := by
  cases performed : Access.performAll accesses start with
  | error fault bus =>
      obtain ⟨_, _, failed⟩ := works.error performed
      rw [failed] at ran
      cases ran
  | ok _ bus =>
      obtain ⟨final, done, counted⟩ := works.ok performed
      obtain ⟨restarts, keeps⟩ := Access.divider_performAll performed
      rw [done] at ran
      cases ran
      have restartsDivider := works.restartsDivider_iff
      refine ⟨counted, ?_, ?_⟩
      · intro restarting
        have started := restarts (restartsDivider.mp restarting)
        simp only [Bus.divider_runTimer, started, Nat.zero_add, Nat.mod_mod]
      · intro calm
        have kept := keeps fun access member restarting =>
          calm (restartsDivider.mpr ⟨access, member, restarting⟩)
        simp only [Bus.divider_runTimer, kept, same, Nat.mod_mod]

theorem spends_execute {board middle : Board} {spent : Nat}
    (executed : execute board = .ok spent middle)
    : Spends board ⟨spent, Probed.eventsOf execute board⟩ middle := by
  obtain ⟨_, observed, rfl, -⟩ :=
    Probed.ok_of_besideBoard Probed.besideBoard_keepsStep.execute executed
  rcases works_execute (.ofBoard board) with ⟨_, _, _, failed, -⟩ | ⟨_, _, _, works⟩
  · rw [failed] at observed
    cases observed
  · exact works.spends rfl observed

theorem spends_admitInterrupt {board served : Board} {serving : Nat}
    (admitted : admitInterrupt board = .ok serving served)
    : Spends board ⟨serving, Probed.eventsOf admitInterrupt board⟩ served := by
  obtain ⟨_, observed, rfl, -⟩ :=
    Probed.ok_of_besideBoard Probed.besideBoard_keepsStep.admitInterrupt admitted
  rcases works_admitInterrupt (.ofBoard board) with ⟨cpu, idle, same⟩ | ⟨_, _, works⟩
  · rw [idle] at observed
    injection observed with none ended
    injection ended with ended events
    subst none ended
    refine ⟨same, ?_, fun _ => rfl⟩
    intro restarts
    rw [← events] at restarts
    rcases restarts with ⟨_, written⟩ | stopped
    · cases written
    · cases stopped
  · exact works.spends rfl observed

/-- The display stays on pace through what keeps the pace, unless it is switched off. -/
theorem settled_of_keeps {act : Act Probed Nat} {board after : Board} {counted spent : Nat}
    {results : Nat → Nat → Prop}
    (keeps : (Probed.watching (OnPace counted)).Keeps results act act)
    (ran : act (.ofBoard board) = .ok spent ⟨after, Probed.eventsOf act board⟩)
    (kept : ¬SwitchesOff (Probed.eventsOf act board))
    (settled : board.bus.video.Settled counted)
    : after.bus.video.Settled counted :=
  (keeps.ofInvariant_ok ran (.inr settled)).2.resolve_left kept

-----------------------------------------------------------------------------------------
-- Steps
-----------------------------------------------------------------------------------------

/-- A step is an execution, the admission of an interrupt, and a run of the video unit. -/
theorem step_ok {board after : Board} {clocks : Nat} (stepped : step board = .ok clocks after)
    : ∃ spent serving middle served,
        execute board = .ok spent middle
        ∧ admitInterrupt middle = .ok serving served
        ∧ clocks = (spent + serving) * clocksPerCycle
        ∧ after = leaveBoot { served with bus := (served.bus.runVideo clocks).1 } := by
  obtain ⟨spent, middle, executed, stepped⟩ := Act.ok_of_bind stepped
  obtain ⟨serving, served, admitted, stepped⟩ := Act.ok_of_bind stepped
  cases stepped
  exact ⟨spent, serving, middle, served, executed, admitted, rfl, rfl⟩

/-- The end of a step touches neither processor nor timer. -/
theorem clock_leaveBoot (board : Board)
    : board.leaveBoot.cpu = board.cpu ∧ board.leaveBoot.bus.timer = board.bus.timer := by
  unfold leaveBoot
  split
  · exact ⟨rfl, rfl⟩
  · exact ⟨rfl, rfl⟩

/-- A phase spends its cycles also with what leaves processor and timer alone. -/
theorem Spends.ending {before after final : Board} {phase : Phase}
    (spends : Spends before phase after)
    (same : final.cpu = after.cpu ∧ final.bus.timer = after.bus.timer)
    : Spends before phase final := by
  obtain ⟨cpu, timer⟩ := same
  refine ⟨?_, ?_, ?_⟩
  · rw [cpu]
    exact spends.cycles
  · rw [timer]
    exact spends.restarted
  · rw [timer]
    exact spends.divided

/-- A step has two phases and takes the clocks of both, which the video unit counts. -/
theorem phases_of_step {board after : Board} {clocks : Nat}
    (stepped : step board = .ok clocks after) (count : Nat)
    : ∃ first second middle,
        phases (count + 1) board = first :: second :: phases count after
        ∧ Spends board first middle
        ∧ Spends middle second after
        ∧ clocks = 4 * (first.cycles + second.cycles)
        ∧ ∀ counted,
          ¬SwitchesOff (first.events ++ second.events)
          → board.bus.video.Settled counted
          → after.bus.video.Settled (counted + clocks) := by
  obtain ⟨spent, serving, middle, served, executed, admitted, taken, rfl⟩ := step_ok stepped
  have ended : step.endsIn board
      = leaveBoot { served with bus := (served.bus.runVideo clocks).1 } := by
    rw [Act.endsIn, stepped]
  refine ⟨⟨spent, Probed.eventsOf execute board⟩,
    ⟨serving, Probed.eventsOf admitInterrupt middle⟩, middle, ?_, spends_execute executed, ?_, ?_,
    ?_⟩
  · simp only [phases, executed, admitted, ended]
  · exact (spends_admitInterrupt admitted).ending (clock_leaveBoot _)
  · rw [taken]
    exact Nat.mul_comm _ _
  · intro counted kept settled
    rw [switchesOff_append, not_or] at kept
    obtain ⟨_, executing, rfl, -⟩ :=
      Probed.ok_of_besideBoard Probed.besideBoard_keepsStep.execute executed
    obtain ⟨_, admitting, rfl, -⟩ :=
      Probed.ok_of_besideBoard Probed.besideBoard_keepsStep.admitInterrupt admitted
    have parts := (onPace_keptByDispatch counted).keepsDispatch
    have executed := settled_of_keeps parts.execute executing kept.1 settled
    have admitted := settled_of_keeps parts.admitInterrupt admitting kept.2 executed
    rw [video_leaveBoot]
    exact admitted.advance clocks served.bus.requests

-----------------------------------------------------------------------------------------
-- Runs
-----------------------------------------------------------------------------------------

/-- Machine cycles of some phases. -/
def spentCycles (phases : List Phase) : Nat :=
  (phases.map (·.cycles)).sum

theorem steps_succ_ok {State : Type} [Housing State] {start after : State} {count : Nat}
    {clocks : List Nat} (ran : steps (count + 1) start = .ok clocks after)
    : ∃ first rest middle,
        step start = .ok first middle
        ∧ steps count middle = .ok rest after
        ∧ clocks = first :: rest := by
  obtain ⟨first, middle, stepped, ran⟩ := Act.ok_of_bind ran
  obtain ⟨rest, _, remaining, ended⟩ := Act.ok_of_bind ran
  cases ended
  exact ⟨first, rest, middle, stepped, remaining, rfl⟩

/-- Steps go on from where the first one ends. -/
theorem steps_succ_of_ok {board middle after : Board} {first count : Nat} {rest : List Nat}
    (stepped : step board = .ok first middle) (ran : steps count middle = .ok rest after)
    : steps (count + 1) board = .ok (first :: rest) after :=
  (Act.bind_of_ok stepped _).trans (Act.bind_of_ok ran _)

/-- Steps go on from where others end, by induction on the first ones. -/
theorem steps_append {board middle after : Board} {first second : Nat} {before later : List Nat}
    (ran : steps first board = .ok before middle) (rest : steps second middle = .ok later after)
    : steps (first + second) board = .ok (before ++ later) after := by
  induction first generalizing board before with
  | zero =>
      cases ran
      rwa [Nat.zero_add]
  | succ first ih =>
      obtain ⟨clocks, others, between, stepped, remaining, rfl⟩ := steps_succ_ok ran
      rw [Nat.succ_add]
      exact steps_succ_of_ok stepped (ih remaining)

/-- Steps spend the cycles of their phases, and four clocks for each, by induction on them. -/
theorem spendsAll_of_steps {board after : Board} {count : Nat} {clocks : List Nat}
    (ran : steps count board = .ok clocks after)
    : SpendsAll board (phases count board) after
      ∧ clocks.sum = 4 * spentCycles (phases count board) := by
  induction count generalizing board clocks with
  | zero =>
      cases ran
      exact ⟨.nil, rfl⟩
  | succ count ih =>
      obtain ⟨taken, rest, middle, stepped, remaining, rfl⟩ := steps_succ_ok ran
      obtain ⟨first, second, between, split, executed, admitted, clocks, -⟩ :=
        phases_of_step stepped count
      obtain ⟨spends, total⟩ := ih remaining
      rw [split]
      refine ⟨.cons executed (.cons admitted spends), ?_⟩
      unfold spentCycles at total ⊢
      simp only [List.map_cons, List.sum_cons, total, clocks]
      omega

/-- The video unit counts the clocks of all steps, unless it is switched off. -/
theorem settled_of_steps {board after : Board} {count counted : Nat} {clocks : List Nat}
    (ran : steps count board = .ok clocks after)
    (kept : ¬SwitchesOff ((phases count board).flatMap (·.events)))
    (settled : board.bus.video.Settled counted)
    : after.bus.video.Settled (counted + clocks.sum) := by
  induction count generalizing board clocks counted with
  | zero =>
      cases ran
      exact settled
  | succ count ih =>
      obtain ⟨taken, rest, middle, stepped, remaining, rfl⟩ := steps_succ_ok ran
      obtain ⟨first, second, between, split, -, -, -, paced⟩ := phases_of_step stepped count
      rw [split, List.flatMap_cons, List.flatMap_cons, ← List.append_assoc, switchesOff_append,
        not_or] at kept
      have next := ih remaining kept.2 (paced counted kept.1 settled)
      rwa [Nat.add_assoc] at next

namespace SpendsAll

variable {before after : Board}

/-- The processor counts the cycles of all phases. -/
theorem cycles {phases : List Phase} (spends : SpendsAll before phases after)
    : after.cpu.cycles = before.cpu.cycles + spentCycles phases := by
  induction spends with
  | nil => rfl
  | cons first _ ih =>
      rw [ih, first.cycles]
      unfold spentCycles
      simp only [List.map_cons, List.sum_cons]
      omega

/-- So does the divider while no phase restarts it. -/
theorem divided {phases : List Phase} (spends : SpendsAll before phases after)
    (calm : ∀ phase ∈ phases, ¬phase.RestartsDivider)
    : after.bus.timer.divider % Timer.dividerTurn
      = (before.bus.timer.divider + spentCycles phases) % Timer.dividerTurn := by
  induction spends with
  | nil => rfl
  | @cons before phase _ rest _ first _ ih =>
      have next := ih fun later member => calm later (List.mem_cons_of_mem _ member)
      have start := first.divided (calm phase List.mem_cons_self)
      unfold spentCycles Timer.dividerTurn Timer.dividerStep at *
      simp only [List.map_cons, List.sum_cons]
      omega

/-- Phases can be parted where one ends. -/
theorem part {earlier later : List Phase} (spends : SpendsAll before (earlier ++ later) after)
    : ∃ between, SpendsAll before earlier between ∧ SpendsAll between later after := by
  induction earlier generalizing before with
  | nil => exact ⟨before, .nil, spends⟩
  | cons phase rest ih =>
      cases spends with
      | cons first remaining =>
          obtain ⟨between, left, right⟩ := ih remaining
          exact ⟨between, .cons first left, right⟩

/-- Since it was restarted last, the divider counts the cycles of the phase that restarted it and
of those that followed.
-/
theorem restarted {earlier since : List Phase} {phase : Phase}
    (spends : SpendsAll before (earlier ++ phase :: since) after)
    (restarts : phase.RestartsDivider) (calm : ∀ later ∈ since, ¬later.RestartsDivider)
    : after.bus.timer.divider % Timer.dividerTurn
      = (phase.cycles + spentCycles since) % Timer.dividerTurn := by
  obtain ⟨between, -, restarting⟩ := spends.part
  cases restarting with
  | cons first rest =>
      have start := first.restarted restarts
      have counted := rest.divided calm
      unfold Timer.dividerTurn Timer.dividerStep at *
      omega

end SpendsAll

end Handheld.Board

namespace Handheld.Coupling

/-- Steps keep what one step keeps, by induction on them. -/
theorem KeepsStep.steps {Left Right : Type} [Housing Left] [Housing Right]
    {coupling : Coupling Left Right} (parts : coupling.KeepsStep) (count : Nat)
    : coupling.Keeps Eq (Board.steps count) (Board.steps count) := by
  induction count with
  | zero => exact .pure rfl
  | succ count ih =>
      refine parts.step.bind ?_
      intro clocks _ ⟨same, _⟩
      subst same
      exact ih.andThen fun _ => .pure rfl

end Handheld.Coupling
