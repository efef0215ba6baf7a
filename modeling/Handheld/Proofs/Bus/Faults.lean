import Handheld.Proofs.Bus.Accesses
import Handheld.Proofs.Cartridge

/-! The faults of the bus. Under the strict policy an access may be refused because its register
is not modelled; under any policy a bank controller may refuse to map its clock. How a bus was
put together, its policy included, is changed by no access.
-/

namespace Handheld

-----------------------------------------------------------------------------------------
-- Invariants with faults
-----------------------------------------------------------------------------------------

namespace Act

variable {State α β : Type} {invariant : State → Prop} {reports : Fault → Prop}

/-- An outcome in which an invariant holds, and which reports no other faults than some. -/
def Guarded (invariant : State → Prop) (reports : Fault → Prop)
    : EStateM.Result Fault State α → Prop
  | .ok _ after => invariant after
  | .error fault after => invariant after ∧ reports fault

/-- Wherever an invariant holds, the outcome of an action is guarded. -/
def Guards (invariant : State → Prop) (reports : Fault → Prop) (act : Act State α) : Prop :=
  ∀ state, invariant state → Guarded invariant reports (act state)

theorem Guards.pure (value : α)
    : Guards invariant reports (Pure.pure value : Act State α) := by
  intro state holds
  exact holds

theorem Guards.modify {change : State → State}
    (keeps : ∀ state, invariant state → invariant (change state))
    : Guards invariant reports (modify change : Act State Unit) := by
  intro state holds
  exact keeps state holds

theorem Guards.bind {act : Act State α} {next : α → Act State β}
    (first : Guards invariant reports act)
    (rest : ∀ value, Guards invariant reports (next value))
    : Guards invariant reports (act >>= next) := by
  intro state holds
  have outcome := first state holds
  cases ran : act state with
  | ok value middle =>
      rw [ran] at outcome
      rw [Act.bind_of_ok ran]
      exact rest value middle outcome
  | error fault after =>
      rw [ran] at outcome
      rw [Act.bind_of_error ran]
      exact outcome

/-- An action that guards an invariant reports only the faults that it may. -/
theorem Guards.answer {act : Act State α} (guards : Guards invariant reports act)
    {state : State} {fault : Fault} (holds : invariant state)
    (given : act.answer state = .error fault)
    : reports fault := by
  have outcome := guards state holds
  unfold Act.answer at given
  cases ran : act state with
  | ok value after =>
      rw [ran] at given
      cases given
  | error other after =>
      rw [ran] at given outcome
      cases given
      exact outcome.2

theorem Guards.endsIn {act : Act State α} (guards : Guards invariant reports act)
    {state : State} (holds : invariant state)
    : invariant (act.endsIn state) := by
  have outcome := guards state holds
  unfold Act.endsIn
  cases ran : act state with
  | ok value after =>
      rw [ran] at outcome
      exact outcome
  | error fault after =>
      rw [ran] at outcome
      exact outcome.1

end Act

/-- A fault about a register that is not modelled. -/
def Fault.IsUnmodelled : Fault → Prop
  | .unmappedAddress _ | .unmodelledRegister _ => True
  | .undefinedOpcode _ _ | .clockSelect _ _ => False

namespace Bus

/-- How a bus was put together. -/
structure Assembly where
  policy : AccessPolicy
  bootCode : Option ByteArray
  cartridge : Option Cartridge.Shape

def assembly (bus : Bus) : Assembly :=
  { policy := bus.policy
    bootCode := bus.boot.code
    cartridge := bus.cartridge.map Cartridge.shape }

/-- The faults that a bus with some policy may report. -/
def Reports (policy : AccessPolicy) : Fault → Prop
  | .unmappedAddress _ | .unmodelledRegister _ => policy = .strict
  | .clockSelect _ _ => True
  | .undefinedOpcode _ _ => False

/-- An action that leaves a bus as it was put together and respects its policy. -/
def Respects {α : Type} (assembly : Assembly) (act : Act Bus α) : Prop :=
  act.Guards (Bus.assembly · = assembly) (Reports assembly.policy)

variable {assembly : Assembly}

theorem reports_unmodelled (address : UInt16)
    : Reports .strict (unmodelled address) := by
  unfold unmodelled
  split <;> rfl

-----------------------------------------------------------------------------------------
-- Reads
-----------------------------------------------------------------------------------------

/-- Notes are no part of how a bus was put together. -/
theorem Noting.assembly_eq {before after : Bus} (noting : before.Noting after)
    : after.assembly = before.assembly := by
  obtain ⟨noted, rfl⟩ := noting
  rfl

/-- Only what is not modelled may be refused to a reader. -/
theorem reports_of_peek {bus : Bus} {address : UInt16} {fault : Fault}
    (refused : bus.peek address = .error fault)
    : Reports bus.policy fault := by
  unfold peek at refused
  cases located : Location.ofAddress address with
  | peripheral | unmapped =>
      rw [located] at refused
      simp only [peekUnmodelled] at refused
      cases known : bus.policy with
      | strict =>
          rw [known] at refused
          cases refused
          exact reports_unmodelled address
      | bestEffort =>
          rw [known] at refused
          cases refused
  | _ =>
      rw [located] at refused
      cases refused

theorem respects_read (address : UInt16)
    : Respects assembly (read address) := by
  rintro bus rfl
  rcases bus.read_cases address with ⟨after, -, given, -, noting⟩ | ⟨fault, refused, failed, -⟩
  · rw [given]
    exact noting.assembly_eq
  · rw [failed]
    exact ⟨rfl, reports_of_peek refused⟩

/-- Reads at successive addresses, by induction on their number. -/
theorem respects_readRun (count : Nat) (address : UInt16)
    : Respects assembly (readRun count address) := by
  induction count generalizing address with
  | zero => exact .pure _
  | succ count ih =>
      refine (respects_read address).bind fun value => ?_
      exact (ih (address + 1)).bind fun rest => .pure _

theorem respects_readPage (page : UInt8)
    : Respects assembly (readPage page) :=
  (respects_readRun 0xA0 _).bind fun _ => .pure _

-----------------------------------------------------------------------------------------
-- Writes
-----------------------------------------------------------------------------------------

theorem respects_modify {change : Bus → Bus}
    (keeps : ∀ bus, (change bus).assembly = bus.assembly)
    : Respects assembly (modify change : Act Bus Unit) :=
  .modify fun bus holds => (keeps bus).trans holds

/-- A cartridge refuses only its clock. -/
theorem respects_writeCartridge (address : UInt16) (value : UInt8)
    : Respects assembly (writeCartridge address value) := by
  rintro bus rfl
  unfold writeCartridge
  cases inserted : bus.cartridge with
  | none => rfl
  | some cartridge =>
      have same {after : Cartridge} (shape : after.shape = cartridge.shape)
          : (bus.eject.insert after).assembly = bus.assembly := by
        simp only [Bus.assembly, inserted, ← shape, Option.map_some]
        rfl
      rcases Cartridge.write_cases address value cartridge with ⟨after, written, shape⟩ | refused
      · simp only [written]
        exact same shape
      · simp only [refused]
        exact ⟨same rfl, trivial⟩

theorem respects_writeUnmodelled (address : UInt16)
    : Respects assembly (writeUnmodelled address) := by
  rintro bus rfl
  unfold writeUnmodelled
  cases known : bus.policy with
  | strict =>
      refine ⟨rfl, ?_⟩
      rw [Bus.assembly, known]
      exact reports_unmodelled address
  | bestEffort => exact (bus.noting_note address).assembly_eq

theorem respects_transferObjects (page : UInt8)
    : Respects assembly (transferObjects page) := by
  refine Act.Guards.bind (respects_modify fun _ => rfl) fun _ => ?_
  exact (respects_readPage page).bind fun _ => respects_modify fun _ => rfl

/-- Writes respect the policy, by cases of what the address stands for. -/
theorem respects_write (address : UInt16) (value : UInt8)
    : Respects assembly (write address value) := by
  unfold write
  cases Location.ofAddress address with
  | rom | cartridgeRam => exact respects_writeCartridge address value
  | gap => exact .pure ()
  | bootSwitch =>
      simp only [writeLocation]
      split
      · exact .pure ()
      · exact respects_modify fun _ => rfl
  | peripheral | unmapped => exact respects_writeUnmodelled address
  | video register =>
      cases register with
      | transferPage => exact respects_transferObjects value
      | _ => exact respects_modify fun _ => rfl
  | _ => exact respects_modify fun _ => rfl

-----------------------------------------------------------------------------------------
-- Lists of accesses
-----------------------------------------------------------------------------------------

theorem respects_perform (access : Access)
    : Respects assembly access.perform := by
  cases access with
  | read address => exact (respects_read address).bind fun _ => .pure ()
  | write address value => exact respects_write address value
  | restartDivider => exact respects_modify fun _ => rfl

theorem respects_performAll (accesses : List Access)
    : Respects assembly (Access.performAll accesses) := by
  induction accesses with
  | nil => exact .pure ()
  | cons access rest ih => exact (respects_perform access).bind fun _ => ih

end Bus

end Handheld
