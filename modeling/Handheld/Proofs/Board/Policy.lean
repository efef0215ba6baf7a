import Handheld.Proofs.Board.Calls
import Handheld.Proofs.Bus.Policy

/-! Two boards whose buses differ in their policy or in what they noted. What such buses do alike,
boards do alike, and a board asks for the policy through accesses only. So whatever is asked of
the two boards, they answer alike.
-/

namespace Handheld

open Board

namespace Coupling

/-- Boards with equal processors and coupled buses. -/
def onBoards (coupling : Coupling Bus Bus) : Coupling Board Board :=
  { related := fun left right => right.cpu = left.cpu ∧ coupling.related left.bus right.bus
    excused := coupling.excused }

/-- An action that buses take alike is taken by boards alike. -/
theorem Keeps.onBoards {coupling : Coupling Bus Bus} {α : Type} {act : Act Bus α}
    (keeps : coupling.Keeps Eq act act)
    : coupling.onBoards.Keeps Eq (onBus act) (onBus act) := by
  intro left right coupled
  obtain ⟨cpu, left⟩ := left
  obtain ⟨other, right⟩ := right
  obtain ⟨same, related⟩ := coupled
  obtain rfl : other = cpu := same
  have outcome := keeps left right related
  simp only [onBus, Housing.onBoard]
  revert outcome
  generalize act left = leftOutcome
  generalize act right = rightOutcome
  intro outcome
  cases outcome with
  | ok same related => exact .ok same ⟨rfl, related⟩
  | error related => exact .error ⟨rfl, related⟩
  | excused excused => exact .excused excused

namespace PolicyBlind

variable {coupling : Coupling Bus Bus} (blind : coupling.PolicyBlind)

include blind

theorem differ_onBoards {left right : Board} (coupled : coupling.onBoards.related left right)
    : ∃ policy noted, right = ⟨left.cpu, { left.bus with policy, noted }⟩ := by
  obtain ⟨policy, noted, bus⟩ := blind.differ coupled.2
  exact ⟨policy, noted, by rw [← bus, ← coupled.1]⟩

/-- A view that does not show policy and notes shows the same of both boards. -/
theorem inspect {α : Type} {view : Board → α}
    (apart : ∀ cpu bus policy noted, view ⟨cpu, { bus with policy, noted }⟩ = view ⟨cpu, bus⟩)
    : coupling.onBoards.Keeps Eq (inspect view) (inspect view) := by
  intro left right coupled
  obtain ⟨policy, noted, same⟩ := blind.differ_onBoards coupled
  refine .ok ?_ coupled
  rw [same]
  exact (apart _ _ _ _).symm

/-- A change that does not regard policy and notes is made on both boards. -/
theorem alter {change : Board → Board}
    (apart : ∀ cpu bus policy noted,
      change ⟨cpu, { bus with policy, noted }⟩
        = ⟨(change ⟨cpu, bus⟩).cpu, { (change ⟨cpu, bus⟩).bus with policy, noted }⟩)
    : coupling.onBoards.Keeps Eq (alter change) (alter change) := by
  intro left right coupled
  obtain ⟨policy, noted, rfl⟩ := blind.differ_onBoards coupled
  have unpolicied : Bus.Unpolicied fun bus => (change ⟨left.cpu, bus⟩).bus :=
    fun bus policy noted => congrArg Board.bus (apart left.cpu bus policy noted)
  have moved := congrArg Board.cpu (apart left.cpu left.bus policy noted)
  exact .ok rfl ⟨moved, blind.change unpolicied coupled.2⟩

/-- Whatever is asked of the boards, they do it alike, part by part. -/
theorem keepsCalls : coupling.onBoards.KeepsCalls where
  observe view := blind.inspect fun _ _ _ _ => rfl
  keyPressed := blind.inspect fun _ _ _ _ => rfl
  modifyCpu _ := blind.alter fun _ _ _ _ => rfl
  planEnable _ :=
    Keeps.andThen (blind.alter fun _ _ _ _ => rfl) fun _ => blind.alter fun _ _ _ _ => rfl
  instruction _ := fun _ _ related => .ok rfl related
  read address := (blind.read address).onBoards
  write address value := (blind.write address value).onBoards
  resetDivider := blind.alter fun _ _ _ _ => rfl
  runTimer _ := blind.alter fun _ _ _ _ => rfl
  nextInterrupt := blind.inspect fun _ _ _ _ => rfl
  acknowledge source := by
    have apart : coupling.onBoards.Keeps Eq (modifyBus (·.acknowledge source))
        (modifyBus (·.acknowledge source)) := blind.alter fun _ _ _ _ => rfl
    exact apart
  runVideo _ := blind.alter fun _ _ _ _ => rfl
  leaveBoot := blind.alter fun cpu bus policy noted => by
    unfold leaveBoot
    dsimp only
    split
    · rfl
    · rfl
  readPage page := (blind.readPage page).onBoards

end PolicyBlind

end Coupling

end Handheld
