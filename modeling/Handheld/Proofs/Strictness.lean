import Handheld.Proofs.Board.Faults
import Handheld.Proofs.Board.Policy

/-! What the policy for unmodelled registers decides. A strict machine and a lenient one run in
lockstep for as long as the strict one meets no register that is not modelled, and the lenient one
never reports such a register.
-/

namespace Handheld

namespace Board

-----------------------------------------------------------------------------------------
-- A strict board beside a lenient one
-----------------------------------------------------------------------------------------

/-- Boards that differ at most in the policy of their buses and in what these noted. -/
def Alike (strict lenient : Board) : Prop :=
  lenient.cpu = strict.cpu ∧ strict.bus.Alike lenient.bus

def besideLenient : Coupling Board Board :=
  { related := Alike
    excused := Fault.IsUnmodelled }

/-- Whatever is asked of the boards, they do it alike: the policy is asked for by accesses to
registers that are not modelled, and by nothing else.
-/
theorem alike_keepsCalls : besideLenient.KeepsCalls :=
  Bus.besideLenient_policyBlind.keepsCalls

end Board

-----------------------------------------------------------------------------------------
-- Machines
-----------------------------------------------------------------------------------------

namespace Machine

/-- Machines that differ at most in the policy of their buses and in what these noted. -/
def Alike (strict lenient : Machine) : Prop :=
  lenient.overrun = strict.overrun ∧ strict.board.Alike lenient.board

/-- The strict policy only restricts. A strict machine and a lenient one that are alike answer
alike and stay alike, faults of other kinds included, as long as the strict one reports no
register that is not modelled. A lenient machine reports none, whatever is asked of it.
-/
theorem strict_restricts_bestEffort (calls : List Board.Call)
    : (∀ strict lenient : Machine,
        strict.Alike lenient
        → (∀ fault, .error fault ∈ strict.answers calls → ¬fault.IsUnmodelled)
        → lenient.answers calls = strict.answers calls
          ∧ (strict.after calls).Alike (lenient.after calls))
      ∧ ∀ machine : Machine,
        machine.board.bus.policy = .bestEffort
        → ∀ fault, .error fault ∈ machine.answers calls → ¬fault.IsUnmodelled := by
  constructor
  · intro strict lenient alike modelled
    obtain ⟨overrun, alike⟩ := alike
    obtain ⟨answered, ends⟩ := Board.alike_keepsCalls.answers calls alike modelled
    exact ⟨answered, overrun, ends⟩
  · intro machine policy fault given unmodelled
    have strict := Board.reports_of_mem_answers given unmodelled
    rw [policy] at strict
    cases strict

/-- Two machines that differ in their policy alone. -/
def inHighMemoryOf (policy : AccessPolicy) : Machine :=
  inHighMemory (.initial policy)

/-- An undefined opcode is reported under either policy. Reading and writing where nothing is
modelled are told apart by the policy.
-/
theorem strict_restricts_bestEffort_highMemory
    : (inHighMemoryOf .bestEffort).answers [.write 0xFF81 0xD3, .step, .step, .read 0xFF81]
        = [.ok .done, .ok (.clocks 4), .error (.undefinedOpcode 0xD3 0xFF81), .ok (.byte 0xD3)]
      ∧ (∀ fault,
        .error fault ∈ (inHighMemoryOf .bestEffort).answers [.read 0xFF02, .write 0xFF7F 1]
        → ¬fault.IsUnmodelled)
      ∧ (inHighMemoryOf .strict).answers [.read 0xFF02, .write 0xFF7F 1]
        = [.error (.unmodelledRegister 0xFF02), .error (.unmappedAddress 0xFF7F)] := by
  let calls : List Board.Call := [.write 0xFF81 0xD3, .step, .step, .read 0xFF81]
  have alike : (inHighMemoryOf .strict).Alike (inHighMemoryOf .bestEffort) :=
    ⟨rfl, rfl, rfl, _, rfl⟩
  have strict : (inHighMemoryOf .strict).answers calls
      = [.ok .done, .ok (.clocks 4), .error (.undefinedOpcode 0xD3 0xFF81), .ok (.byte 0xD3)] :=
    rfl
  have modelled
      : ∀ fault, .error fault ∈ (inHighMemoryOf .strict).answers calls → ¬fault.IsUnmodelled := by
    intro fault given unmodelled
    rw [strict] at given
    obtain rfl : fault = .undefinedOpcode 0xD3 0xFF81 := by simpa using given
    exact unmodelled
  have restricts := (strict_restricts_bestEffort calls).1 _ _ alike modelled
  exact ⟨restricts.1.trans strict, (strict_restricts_bestEffort _).2 _ rfl, rfl⟩

end Machine

end Handheld
