import Handheld.Proofs.Board.Coupling
import Handheld.Proofs.Bus.Access

/-! A board under observation. A probe writes down what it notices and leaves the board to
run as it would by itself. A property of the bus and of what was noticed holds after a step
when the accesses and devices of the bus preserve it.
-/

namespace Handheld

/-- A board with a list of what was noticed, latest last. -/
structure Probed where
  board : Board
  events : List Board.Event

/-- The probe notices everything and touches nothing. -/
instance : Housing Probed where
  onBoard act := fun ⟨board, events⟩ =>
    match act board with
    | .ok value board => .ok value ⟨board, events⟩
    | .error fault board => .error fault ⟨board, events⟩
  notice event probed := { probed with events := probed.events ++ [event] }

namespace Probed

-----------------------------------------------------------------------------------------
-- The same run with and without a probe
-----------------------------------------------------------------------------------------

/-- A board about to be observed. -/
def ofBoard (board : Board) : Probed :=
  { board, events := [] }

/-- A probed board beside the same board by itself. -/
def besideBoard : Coupling Probed Board :=
  { related := fun probed board => probed.board = board
    excused := fun _ => False }

/-- An action of the board alone does the same under observation. -/
theorem besideBoard_onBoard {α : Type} (act : Act Board α)
    : besideBoard.Keeps Eq (Housing.onBoard act) act := by
  rintro ⟨board, events⟩ _ rfl
  change besideBoard.Admits Eq
    (match act board with
      | .ok value board => .ok value ⟨board, events⟩
      | .error fault board => .error fault ⟨board, events⟩)
    (act board)
  cases act board with
  | ok value after => exact .ok rfl rfl
  | error fault after => exact .error rfl

/-- Noticing changes only the list. -/
theorem besideBoard_notice (event : Board.Event)
    : besideBoard.Keeps Eq (Board.notice event) (Board.notice event) := by
  rintro probed _ rfl
  exact .ok rfl rfl

/-- Observation changes no part of a step: all of them act on the board alone, and some are
noticed first.
-/
theorem besideBoard_keepsStep : besideBoard.KeepsStep where
  observe _ := besideBoard_onBoard _
  keyPressed := besideBoard_onBoard _
  modifyCpu _ := besideBoard_onBoard _
  planEnable _ := (besideBoard_onBoard _).andThen fun _ => besideBoard_onBoard _
  instruction _ := besideBoard_notice _
  read _ := besideBoard_onBoard _
  write _ _ := (besideBoard_notice _).andThen fun _ => besideBoard_onBoard _
  resetDivider := besideBoard_onBoard _
  runTimer _ := besideBoard_onBoard _
  nextInterrupt := besideBoard_onBoard _
  acknowledge _ := (besideBoard_notice _).andThen fun _ => besideBoard_onBoard _
  runVideo _ := besideBoard_onBoard _
  leaveBoot := besideBoard_onBoard _

/-- What is noticed while an action runs on a board. -/
def eventsOf {α : Type} (act : Act Probed α) (board : Board) : List Board.Event :=
  (act.endsIn (ofBoard board)).events

/-- A run of a board by itself is a run under observation. -/
theorem ok_of_besideBoard {α β : Type} {results : α → β → Prop} {act : Act Probed α}
    {plain : Act Board β} (keeps : besideBoard.Keeps results act plain) {board after : Board}
    {y : β} (ran : plain board = .ok y after)
    : ∃ x, act (ofBoard board) = .ok x ⟨after, eventsOf act board⟩ ∧ results x y := by
  have outcome := keeps (ofBoard board) board rfl
  unfold eventsOf Act.endsIn
  rw [ran] at outcome
  cases observed : act (ofBoard board) with
  | ok x probed =>
      rw [observed] at outcome
      cases outcome with
      | ok result related =>
          obtain rfl := related
          exact ⟨x, rfl, result⟩
  | error fault probed =>
      rw [observed] at outcome
      cases outcome with
      | excused excused => exact excused.elim

/-- A run under observation is a run of the board by itself. -/
theorem plain_of_ok {α β : Type} {results : α → β → Prop} {act : Act Probed α}
    {plain : Act Board β} (keeps : besideBoard.Keeps results act plain)
    {probed after : Probed} {x : α} (ran : act probed = .ok x after)
    : ∃ y, plain probed.board = .ok y after.board ∧ results x y := by
  have outcome := keeps probed probed.board rfl
  rw [ran] at outcome
  cases alone : plain probed.board with
  | ok y board =>
      rw [alone] at outcome
      cases outcome with
      | ok result related =>
          obtain rfl := related
          exact ⟨y, rfl, result⟩
  | error fault board =>
      rw [alone] at outcome
      cases outcome

/-- A run under observation that fails is a run of the board by itself that fails alike. -/
theorem plain_of_error {α β : Type} {results : α → β → Prop} {act : Act Probed α}
    {plain : Act Board β} (keeps : besideBoard.Keeps results act plain)
    {probed after : Probed} {fault : Fault} (failed : act probed = .error fault after)
    : plain probed.board = .error fault after.board := by
  have outcome := keeps probed probed.board rfl
  rw [failed] at outcome
  cases alone : plain probed.board with
  | ok y board =>
      rw [alone] at outcome
      cases outcome with
      | excused excused => exact excused.elim
  | error other board =>
      rw [alone] at outcome
      cases outcome with
      | error related => rw [related]
      | excused excused => exact excused.elim

/-- Whether or not it fails, a run of a board by itself ends in the board of the run under
observation.
-/
theorem endsIn_of_besideBoard {α β : Type} {results : α → β → Prop} {act : Act Probed α}
    {plain : Act Board β} (keeps : besideBoard.Keeps results act plain) (board : Board)
    : plain.endsIn board = (act.endsIn (ofBoard board)).board := by
  unfold Act.endsIn
  cases observed : act (ofBoard board) with
  | ok x after =>
      obtain ⟨y, ran, -⟩ := plain_of_ok keeps observed
      change plain board = _ at ran
      rw [ran]
  | error fault after =>
      have failed := plain_of_error keeps observed
      change plain board = _ at failed
      rw [failed]

/-- A step is an execution, the admission of an interrupt, and a run of the video unit. -/
theorem step_ok {probed after : Probed} {clocks : Nat}
    (stepped : Board.step probed = .ok clocks after)
    : ∃ spent serving middle served,
        Board.execute probed = .ok spent middle
        ∧ Board.admitInterrupt middle = .ok serving served
        ∧ clocks = (spent + serving) * Board.clocksPerCycle
        ∧ after.events = served.events
        ∧ after.board
          = Board.leaveBoot
            { served.board with bus := (served.board.bus.runVideo clocks).1 } := by
  obtain ⟨spent, middle, executed, stepped⟩ := Act.ok_of_bind stepped
  obtain ⟨serving, served, admitted, stepped⟩ := Act.ok_of_bind stepped
  cases stepped
  exact ⟨spent, serving, middle, served, executed, admitted, rfl, rfl, rfl⟩

-----------------------------------------------------------------------------------------
-- Properties of the bus and of what was noticed
-----------------------------------------------------------------------------------------

/-- A probed board beside itself, with a property of its bus and of what was noticed. -/
def watching (property : Bus → List Board.Event → Prop) : Coupling Probed Probed :=
  .ofInvariant fun probed => property probed.board.bus probed.events

/-- A property that the parts of instructions preserve. -/
structure KeptByParts (property : Bus → List Board.Event → Prop) : Prop where
  instruction {bus events} (instruction : Instruction)
    : property bus events → property bus (events ++ [.instruction instruction])
  noting {before after events}
    : before.Noting after → property before events → property after events
  write {bus events} (address : UInt16) (value : UInt8)
    : property bus events
      → property ((Bus.write address value).endsIn bus) (events ++ [.write address value])
  resetDivider {bus events} : property bus events → property bus.resetDivider events
  runTimer {bus events} (cycles : Nat)
    : property bus events → property (bus.runTimer cycles) events

/-- A property that dispatches preserve too. -/
structure KeptByDispatch (property : Bus → List Board.Event → Prop) : Prop
    extends KeptByParts property where
  acknowledge {bus events} (source : Interrupt)
    : property bus events
      → property (bus.acknowledge source) (events ++ [.interrupt source])

/-- A property that all parts of a step preserve. -/
structure KeptByStep (property : Bus → List Board.Event → Prop) : Prop
    extends KeptByDispatch property where
  runVideo {bus events} (clocks : Nat)
    : property bus events → property (bus.runVideo clocks).1 events
  unmapBoot {bus events} : property bus events → property bus.unmapBoot events

/-- An action of the bus ends in its bus under observation. -/
theorem endsIn_onBus {α : Type} (act : Act Bus α) (cpu : Cpu) (bus : Bus)
    (events : List Board.Event)
    : Act.endsIn (Board.onBus act) (⟨⟨cpu, bus⟩, events⟩ : Probed)
      = ⟨⟨cpu, act.endsIn bus⟩, events⟩ := by
  simp only [Act.endsIn, Board.onBus, Housing.onBoard]
  cases act bus <;> rfl

variable {property : Bus → List Board.Event → Prop}

/-- What the accesses of the bus and its timer preserve, the parts of instructions do. -/
theorem KeptByParts.keepsParts (kept : KeptByParts property)
    : (watching property).KeepsParts where
  observe _ := .ofInvariant fun _ holds => holds
  keyPressed := .ofInvariant fun _ holds => holds
  modifyCpu _ := .ofInvariant fun _ holds => holds
  planEnable _ := .ofInvariant fun _ holds => holds
  instruction instruction := .ofInvariant fun _ holds => kept.instruction instruction holds
  read address := .ofInvariant fun ⟨⟨cpu, bus⟩, events⟩ holds => by
    rw [Board.read, endsIn_onBus]
    exact kept.noting (bus.noting_read address) holds
  write address value := .ofInvariant fun ⟨⟨cpu, bus⟩, events⟩ holds => by
    change property (Act.endsIn (Board.onBus (Bus.write address value))
      (⟨⟨cpu, bus⟩, events ++ [.write address value]⟩ : Probed)).board.bus
      (Act.endsIn (Board.onBus (Bus.write address value))
        (⟨⟨cpu, bus⟩, events ++ [.write address value]⟩ : Probed)).events
    rw [endsIn_onBus]
    exact kept.write address value holds
  resetDivider := .ofInvariant fun _ holds => kept.resetDivider holds
  runTimer cycles := .ofInvariant fun _ holds => kept.runTimer cycles holds

/-- So do the parts of dispatches. -/
theorem KeptByDispatch.keepsDispatch (kept : KeptByDispatch property)
    : (watching property).KeepsDispatch where
  toKeepsParts := kept.keepsParts
  nextInterrupt := .ofInvariant fun _ holds => holds
  acknowledge source := .ofInvariant fun _ holds => kept.acknowledge source holds

/-- So do all parts of a step. -/
theorem KeptByStep.keepsStep (kept : KeptByStep property)
    : (watching property).KeepsStep where
  toKeepsDispatch := kept.keepsDispatch
  runVideo clocks := .ofInvariant fun _ holds => kept.runVideo clocks holds
  leaveBoot := .ofInvariant fun ⟨board, events⟩ holds => by
    change property board.leaveBoot.bus events
    unfold Board.leaveBoot
    split
    · exact kept.unmapBoot holds
    · exact holds

end Probed

end Handheld
