import Handheld.Proofs.Bus.Faults

/-! Two buses that differ in their policy or in what they noted. The policy is asked for by accesses
to registers that are not modelled and what was noted is never asked for, so that such buses take
all other accesses alike. A strict bus and a lenient one part where the strict one refuses a
register; buses that differ in their notes alone never do.
-/

namespace Handheld

open Bus

/-- A change that neither asks for the policy and the notes nor touches them. -/
def Bus.Unpolicied (change : Bus → Bus) : Prop :=
  ∀ bus policy noted,
    change { bus with policy, noted } = { change bus with policy, noted }

theorem Bus.Unpolicied.policy_eq {change : Bus → Bus} (apart : Unpolicied change) (bus : Bus)
    : (change bus).policy = bus.policy := by
  have kept := congrArg Bus.policy (apart bus bus.policy bus.noted)
  exact kept

namespace Coupling

/-- A coupling of buses that differ in policy and notes at most, kept where these are asked for. -/
structure PolicyBlind (coupling : Coupling Bus Bus) : Prop where
  differ {left right : Bus}
    : coupling.related left right → ∃ policy noted, right = { left with policy, noted }
  change {change : Bus → Bus} {left right : Bus}
    : Unpolicied change
      → coupling.related left right
      → coupling.related (change left) (change right)
  readUnmodelled {address : UInt16}
    : isUnmodelled address → coupling.Keeps Eq (read address) (read address)
  writeUnmodelled (address : UInt16)
    : coupling.Keeps Eq (writeUnmodelled address) (writeUnmodelled address)

namespace PolicyBlind

variable {coupling : Coupling Bus Bus} (blind : coupling.PolicyBlind)

include blind

/-- What buses with equal devices and memories show is the same. -/
theorem read (address : UInt16)
    : coupling.Keeps Eq (Bus.read address) (Bus.read address) := by
  cases unmodelled : isUnmodelled address with
  | true => exact blind.readUnmodelled unmodelled
  | false =>
      intro left right related
      obtain ⟨policy, noted, rfl⟩ := blind.differ related
      unfold isUnmodelled at unmodelled
      unfold Bus.read peek isUnmodelled
      cases located : Location.ofAddress address with
      | peripheral | unmapped =>
          rw [located] at unmodelled
          cases unmodelled
      | _ => exact .ok rfl related

theorem readPage (page : UInt8)
    : coupling.Keeps Eq (Bus.readPage page) (Bus.readPage page) :=
  .readPage blind.read page

theorem modify {change : Bus → Bus} (apart : Unpolicied change)
    : coupling.Keeps Eq (modify change) (modify change) := by
  intro left right related
  exact .ok rfl (blind.change apart related)

/-- A cartridge answers a write without regard to the policy. -/
theorem writeCartridge (address : UInt16) (value : UInt8)
    : coupling.Keeps Eq (Bus.writeCartridge address value) (Bus.writeCartridge address value) := by
  refine .writeCartridge ?_ ?_ address value
  · intro left right related
    obtain ⟨policy, noted, rfl⟩ := blind.differ related
    rfl
  · intro left right cartridge related
    have apart : Unpolicied (·.eject.insert cartridge) := fun _ _ _ => rfl
    exact blind.change apart related

/-- A transfer reads its page between two changes of the video unit. -/
theorem transferObjects (page : UInt8)
    : coupling.Keeps Eq (Bus.transferObjects page) (Bus.transferObjects page) := by
  refine (blind.modify fun _ _ _ => rfl).andThen fun _ => ?_
  exact (blind.readPage page).andThen fun _ => blind.modify fun _ _ _ => rfl

/-- Both buses take the same write, by cases of what the address stands for. -/
theorem write (address : UInt16) (value : UInt8)
    : coupling.Keeps Eq (Bus.write address value) (Bus.write address value) := by
  unfold Bus.write
  cases Location.ofAddress address with
  | rom | cartridgeRam => exact blind.writeCartridge address value
  | gap => exact .pure rfl
  | bootSwitch => exact .branch (fun _ => .pure rfl) fun _ => blind.modify fun _ _ _ => rfl
  | peripheral | unmapped => exact blind.writeUnmodelled address
  | video register =>
      cases register with
      | transferPage => exact blind.transferObjects value
      | _ => exact blind.modify fun _ _ _ => rfl
  | _ => exact blind.modify fun _ _ _ => rfl

end PolicyBlind

end Coupling

namespace Bus

-----------------------------------------------------------------------------------------
-- A strict bus beside a lenient one
-----------------------------------------------------------------------------------------

/-- A strict bus and a lenient one that differ at most in what they noted. -/
def Alike (strict lenient : Bus) : Prop :=
  strict.policy = .strict
  ∧ ∃ noted, lenient = { strict with policy := .bestEffort, noted }

/-- The two are compared until the strict one refuses a register. -/
def besideLenient : Coupling Bus Bus :=
  { related := Alike
    excused := Fault.IsUnmodelled }

theorem isUnmodelled_unmodelled (address : UInt16)
    : (unmodelled address).IsUnmodelled := by
  unfold unmodelled
  split
  · trivial
  · trivial

/-- A strict bus that refuses may stand beside anything. -/
theorem admits_refusal {α : Type} {strict : Bus} (address : UInt16)
    {outcome : EStateM.Result Fault Bus α}
    : besideLenient.Admits Eq (.error (unmodelled address) strict : EStateM.Result Fault Bus α)
        outcome :=
  .excused (isUnmodelled_unmodelled address)

theorem besideLenient_policyBlind : besideLenient.PolicyBlind where
  differ := fun ⟨_, noted, same⟩ => ⟨.bestEffort, noted, same⟩
  change := by
    rintro change strict _ apart ⟨policy, noted, rfl⟩
    exact ⟨(apart.policy_eq strict).trans policy, noted, apart strict .bestEffort noted⟩
  readUnmodelled := by
    intro address unmodelled strict lenient alike
    unfold isUnmodelled at unmodelled
    unfold read peek
    cases located : Location.ofAddress address with
    | peripheral | unmapped =>
        simp only [peekUnmodelled, alike.1]
        exact admits_refusal address
    | _ =>
        rw [located] at unmodelled
        cases unmodelled
  writeUnmodelled address := by
    intro strict lenient alike
    simp only [writeUnmodelled, alike.1]
    exact admits_refusal address

-----------------------------------------------------------------------------------------
-- A bus beside one with other notes
-----------------------------------------------------------------------------------------

/-- Two buses that differ at most in what they noted, compared to the end. -/
def besideNotes : Coupling Bus Bus :=
  { related := Noting
    excused := fun _ => False }

/-- An access is noted beside other notes alike. -/
theorem Noting.note {left right : Bus} (noting : left.Noting right) (address : UInt16)
    : (left.note address).Noting (right.note address) := by
  obtain ⟨noted, rfl⟩ := noting
  cases policy : left.policy with
  | strict => exact ⟨noted, by simp only [Bus.note, policy]⟩
  | bestEffort =>
      exact ⟨noted.setIfInBounds (address.toNat % 0x80) true, by simp only [Bus.note, policy]⟩

theorem besideNotes_policyBlind : besideNotes.PolicyBlind where
  differ := fun {left _} ⟨noted, same⟩ => ⟨left.policy, noted, same⟩
  change := by
    rintro change left _ apart ⟨noted, rfl⟩
    exact ⟨noted, (apart left left.policy noted).trans (by rw [apart.policy_eq])⟩
  readUnmodelled := by
    intro address unmodelled left right noting
    have same : right.peek address = left.peek address := by
      obtain ⟨noted, rfl⟩ := noting
      rfl
    unfold read
    rw [same, if_pos unmodelled, if_pos unmodelled]
    cases left.peek address with
    | ok value => exact .ok rfl (noting.note address)
    | error fault => exact .error noting
  writeUnmodelled address := by
    intro left right noting
    have same : right.policy = left.policy := by
      obtain ⟨noted, rfl⟩ := noting
      rfl
    unfold writeUnmodelled
    rw [same]
    cases left.policy with
    | strict => exact .error noting
    | bestEffort => exact .ok rfl (noting.note address)

end Bus

end Handheld
