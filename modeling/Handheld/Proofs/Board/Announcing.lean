import Handheld.Proofs.Board.Policy
import Handheld.Proofs.Reachable
import Handheld.Proofs.Video.Announcing

/-! Boards with and without a completed picture announced. No access shows the announcement, and
nothing that a board does depends on it, so such boards do the same from step to step.
-/

namespace Handheld

-----------------------------------------------------------------------------------------
-- Buses
-----------------------------------------------------------------------------------------

namespace Bus

/-- The bus with a completed picture announced, if one is to be. -/
def announcing (bus : Bus) (ready : Bool) : Bus :=
  { bus with video := bus.video.announcing ready }

/-- Two buses of which the second may announce a picture that the first does not. -/
def besideAnnouncing : Coupling Bus Bus :=
  { related := fun plain announced => ∃ ready, announced = plain.announcing ready
    excused := fun _ => False }

/-- A change that the announcement makes no difference to. -/
theorem besideAnnouncing_modify {change : Bus → Bus}
    (apart : ∀ bus ready, change (announcing bus ready) = (change bus).announcing ready)
    : besideAnnouncing.Keeps Eq (modify change) (modify change) := by
  rintro plain _ ⟨ready, rfl⟩
  exact .ok rfl ⟨ready, apart plain ready⟩

/-- It is not shown anywhere, by cases of what the address stands for. -/
theorem peek_announcing (bus : Bus) (ready : Bool) (address : UInt16)
    : (bus.announcing ready).peek address = bus.peek address := by
  unfold peek
  cases Location.ofAddress address with
  | video register => exact congrArg Except.ok (bus.video.read_announcing ready register)
  | _ => rfl

theorem note_announcing (bus : Bus) (ready : Bool) (address : UInt16)
    : (bus.announcing ready).note address = (bus.note address).announcing ready := by
  unfold note
  have same : (bus.announcing ready).policy = bus.policy := rfl
  rw [same]
  cases bus.policy <;> rfl

theorem besideAnnouncing_read (address : UInt16)
    : besideAnnouncing.Keeps Eq (read address) (read address) := by
  rintro plain _ ⟨ready, rfl⟩
  unfold read
  rw [peek_announcing]
  cases plain.peek address with
  | error fault => exact .error ⟨ready, rfl⟩
  | ok value =>
      refine .ok rfl ⟨ready, ?_⟩
      rw [note_announcing]
      split <;> rfl

theorem besideAnnouncing_writeUnmodelled (address : UInt16)
    : besideAnnouncing.Keeps Eq (writeUnmodelled address) (writeUnmodelled address) := by
  rintro plain _ ⟨ready, rfl⟩
  unfold writeUnmodelled
  have same : (plain.announcing ready).policy = plain.policy := rfl
  rw [same]
  cases plain.policy with
  | strict => exact .error ⟨ready, rfl⟩
  | bestEffort => exact .ok rfl ⟨ready, note_announcing plain ready address⟩

/-- Both buses take the same write, by cases of what the address stands for. -/
theorem besideAnnouncing_write (address : UInt16) (value : UInt8)
    : besideAnnouncing.Keeps Eq (write address value) (write address value) := by
  have shown (register : Video.Register)
      : besideAnnouncing.Keeps Eq (modifyVideo (·.write register value))
          (modifyVideo (·.write register value)) :=
    besideAnnouncing_modify fun bus ready =>
      congrArg (fun video => { bus with video }) (bus.video.write_announcing ready register value)
  unfold write
  cases Location.ofAddress address with
  | rom | cartridgeRam =>
      refine Coupling.Keeps.writeCartridge ?_ ?_ address value
      · rintro plain _ ⟨ready, rfl⟩
        rfl
      · rintro plain _ after ⟨ready, rfl⟩
        exact ⟨ready, rfl⟩
  | gap => exact .pure rfl
  | bootSwitch => exact .branch (fun _ => .pure rfl) fun _ => besideAnnouncing_modify fun _ _ => rfl
  | peripheral | unmapped => exact besideAnnouncing_writeUnmodelled address
  | video register =>
      cases register with
      | transferPage =>
          refine (shown .transferPage).andThen fun _ => ?_
          exact (Coupling.Keeps.readPage besideAnnouncing_read value).andThen fun _ =>
            besideAnnouncing_modify fun _ _ => rfl
      | _ => exact shown _
  | _ => exact besideAnnouncing_modify fun _ _ => rfl

end Bus

-----------------------------------------------------------------------------------------
-- Boards
-----------------------------------------------------------------------------------------

namespace Board

/-- The board with a completed picture announced, if one is to be. -/
def announcing (board : Board) (ready : Bool) : Board :=
  { board with bus := board.bus.announcing ready }

/-- Boards that are beside each other differ in this at most. -/
theorem eq_announcing_of_related {plain announced : Board}
    (related : Bus.besideAnnouncing.onBoards.related plain announced)
    : ∃ ready, announced = plain.announcing ready := by
  obtain ⟨same, ready, bus⟩ := related
  exact ⟨ready, by rw [announcing, ← bus, ← same]⟩

/-- A view of which the announcement is no part shows the same of both boards. -/
theorem besideAnnouncing_inspect {α : Type} {view : Board → α}
    (apart : ∀ board ready, view (announcing board ready) = view board)
    : Bus.besideAnnouncing.onBoards.Keeps Eq (inspect view) (inspect view) := by
  intro plain announced related
  obtain ⟨ready, rfl⟩ := eq_announcing_of_related related
  exact .ok (apart plain ready).symm related

/-- A change that the announcement makes no difference to is made on both boards. -/
theorem besideAnnouncing_alter {change : Board → Board}
    (apart : ∀ board ready, change (announcing board ready) = (change board).announcing ready)
    : Bus.besideAnnouncing.onBoards.Keeps Eq (alter change) (alter change) := by
  intro plain announced related
  obtain ⟨ready, rfl⟩ := eq_announcing_of_related related
  have changed := apart plain ready
  have cpu := congrArg Board.cpu changed
  exact .ok rfl ⟨cpu, ready, congrArg Board.bus changed⟩

/-- All parts of a step do the same on both boards. -/
theorem besideAnnouncing_keepsStep : Bus.besideAnnouncing.onBoards.KeepsStep where
  observe _ := besideAnnouncing_inspect fun _ _ => rfl
  keyPressed := besideAnnouncing_inspect fun _ _ => rfl
  modifyCpu _ := besideAnnouncing_alter fun _ _ => rfl
  planEnable _ :=
    (besideAnnouncing_alter fun _ _ => rfl).andThen fun _ => besideAnnouncing_alter fun _ _ => rfl
  instruction _ := fun _ _ related => .ok rfl related
  read address := (Bus.besideAnnouncing_read address).onBoards
  write address value := (Bus.besideAnnouncing_write address value).onBoards
  resetDivider := besideAnnouncing_alter fun _ _ => rfl
  runTimer _ := besideAnnouncing_alter fun _ _ => rfl
  nextInterrupt := besideAnnouncing_inspect fun _ _ => rfl
  acknowledge source := by
    have apart
        : Bus.besideAnnouncing.onBoards.Keeps Eq (modifyBus (·.acknowledge source))
            (modifyBus (·.acknowledge source)) :=
      besideAnnouncing_alter fun _ _ => rfl
    exact apart
  runVideo clocks := besideAnnouncing_alter fun board ready => by
    have advanced := board.bus.video.advance_announcing ready clocks board.bus.requests
    simp only [announcing, Bus.announcing, Bus.runVideo, advanced, Video.Sweep.announcing]
  leaveBoot := besideAnnouncing_alter fun board ready => by
    have same
        : ((announcing board ready).bus.boot.mapped
            && (announcing board ready).cpu.pc == cartridgeEntry)
          = (board.bus.boot.mapped && board.cpu.pc == cartridgeEntry) := rfl
    unfold leaveBoot
    rw [same]
    split <;> rfl

end Board

-----------------------------------------------------------------------------------------
-- Machines
-----------------------------------------------------------------------------------------

namespace Machine

/-- The machine with a completed picture announced, if one is to be. -/
def announcing (machine : Machine) (ready : Bool) : Machine :=
  { machine with board := machine.board.announcing ready }

/-- A machine is its acknowledged self, and may announce a picture beyond it. -/
theorem eq_announcing (machine : Machine)
    : machine = machine.acknowledgeFrame.announcing machine.board.bus.video.frameReady :=
  calc
    machine = machine.withBus { machine.board.bus with video := machine.board.bus.video } := rfl
    _ = machine.acknowledgeFrame.announcing machine.board.bus.video.frameReady :=
      congrArg (fun video => machine.withBus { machine.board.bus with video })
        machine.board.bus.video.eq_announcing

/-- A frame ends alike beside an announcement, whether or not it fails. -/
theorem advanceFrame_announcing (machine : Machine) (ready : Bool)
    : (∀ after,
        advanceFrame machine = .ok () after →
        ∃ later, advanceFrame (machine.announcing ready) = .ok () (after.announcing later))
      ∧ ∀ fault after,
          advanceFrame machine = .error fault after →
          ∃ later, advanceFrame (machine.announcing ready) = .error fault (after.announcing later)
    := by
  have keeps := Board.besideAnnouncing_keepsStep.runUntil clocksPerFrame stepsPerFrame
    machine.overrun
  have outcome := keeps machine.board (machine.board.announcing ready) ⟨rfl, ready, rfl⟩
  have same : (machine.announcing ready).board = machine.board.announcing ready := rfl
  have carried : (machine.announcing ready).overrun = machine.overrun := rfl
  unfold advanceFrame
  dsimp only
  rw [same, carried]
  generalize Board.runUntil clocksPerFrame stepsPerFrame machine.overrun machine.board
    = plain at outcome ⊢
  generalize Board.runUntil clocksPerFrame stepsPerFrame machine.overrun
    (machine.board.announcing ready) = announced at outcome ⊢
  cases outcome with
  | ok result related =>
      obtain ⟨later, rfl⟩ := Board.eq_announcing_of_related related
      subst result
      refine ⟨?_, ?_⟩
      · rintro _ ⟨⟩
        exact ⟨later, rfl⟩
      · rintro _ _ ⟨⟩
  | error related =>
      obtain ⟨later, rfl⟩ := Board.eq_announcing_of_related related
      refine ⟨?_, ?_⟩
      · rintro _ ⟨⟩
      · rintro _ _ ⟨⟩
        exact ⟨later, rfl⟩
  | excused excused => exact excused.elim

/-- Two machines that are the same once their pictures are acknowledged. -/
def besideAcknowledged : Coupling Machine Machine :=
  { related := fun left right => left.acknowledgeFrame = right.acknowledgeFrame
    excused := fun _ => False }

/-- They run a frame alike: both go on as the acknowledged machine does. -/
theorem besideAcknowledged_advanceFrame
    : besideAcknowledged.Keeps Eq advanceFrame advanceFrame := by
  intro left right same
  change left.acknowledgeFrame = right.acknowledgeFrame at same
  obtain ⟨leftOk, leftError⟩ := left.acknowledgeFrame.advanceFrame_announcing
    left.board.bus.video.frameReady
  obtain ⟨rightOk, rightError⟩ := right.acknowledgeFrame.advanceFrame_announcing
    right.board.bus.video.frameReady
  rw [← eq_announcing] at leftOk leftError rightOk rightError
  rw [← same] at rightOk rightError
  cases advanced : advanceFrame left.acknowledgeFrame with
  | ok _ after =>
      obtain ⟨_, ranLeft⟩ := leftOk after advanced
      obtain ⟨_, ranRight⟩ := rightOk after advanced
      rw [ranLeft, ranRight]
      exact .ok rfl rfl
  | error fault after =>
      obtain ⟨_, ranLeft⟩ := leftError fault after advanced
      obtain ⟨_, ranRight⟩ := rightError fault after advanced
      rw [ranLeft, ranRight]
      exact .error rfl

/-- What was announced before a step, or is completed in it, is announced after it. -/
theorem announces_keptByStep (earlier : Nat)
    : Probed.KeptByStep fun bus _ => bus.video.Announces earlier where
  instruction _ announces := announces
  noting := by
    rintro _ _ _ ⟨noted, rfl⟩ announces
    exact announces
  write {bus _} address value announces := by
    obtain ⟨actions, ended, made⟩ := bus.video_write address value
    rw [ended]
    exact Video.performAll_preserves (·.Announces earlier)
      (fun action member _ before => before.perform (made action member)) announces
  resetDivider announces := announces
  runTimer _ announces := announces
  acknowledge _ announces := announces
  runVideo {bus _} clocks announces := announces.advance clocks bus.requests
  unmapBoot announces := announces

/-- A frame in which a picture is completed ends with an announcement. -/
theorem frameReady_of_completed {machine after : Machine}
    (ran : advanceFrame machine = .ok () after)
    (completed : machine.board.bus.video.frames < after.board.bus.video.frames)
    : after.board.bus.video.frameReady = true := by
  have kept := announces_keptByStep machine.board.bus.video.frames
  have announces : after.board.bus.video.Announces machine.board.bus.video.frames := by
    have ends : after.board = (advanceFrame.endsIn machine).board := by rw [Act.endsIn, ran]
    rw [ends, board_advanceFrame,
      Probed.endsIn_of_besideBoard (Probed.besideBoard_keepsStep.runUntil _ _ _)]
    exact (kept.keepsStep.runUntil _ _ _).invariant (.inl (Nat.le_refl _))
  exact announces.resolve_left (Nat.not_le.mpr completed)

end Machine

end Handheld
