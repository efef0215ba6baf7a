import Handheld.Proofs.Board.Calls
import Handheld.Proofs.Board.Works

/-! The faults of a board. Whatever is asked of it, a board reports only what the policy of its
bus allows, and its bus stays as it was put together.
-/

namespace Handheld.Board

/-- The faults that a board with some policy may report. -/
def Reports (policy : AccessPolicy) (fault : Fault) : Prop :=
  fault.IsUnmodelled → policy = .strict

/-- An action that leaves the bus of a board as it was put together and respects its policy. -/
def Respects {α : Type} (assembly : Bus.Assembly) (act : Act Probed α) : Prop :=
  act.Guards (·.board.bus.assembly = assembly) (Reports assembly.policy)

variable {assembly : Bus.Assembly}

theorem reports_of_bus {policy : AccessPolicy} {fault : Fault} (reported : Bus.Reports policy fault)
    : Reports policy fault := by
  intro unmodelled
  cases fault with
  | unmappedAddress _ | unmodelledRegister _ => exact reported
  | undefinedOpcode _ _ | clockSelect _ _ => exact unmodelled.elim

theorem respects_onBus {α : Type} {act : Act Bus α} (respects : Bus.Respects assembly act)
    : Respects assembly (onBus act) := by
  intro probed holds
  obtain ⟨⟨cpu, bus⟩, events⟩ := probed
  have outcome := respects bus holds
  simp only [onBus, Housing.onBoard]
  cases ran : act bus with
  | ok value after =>
      rw [ran] at outcome
      exact outcome
  | error fault after =>
      rw [ran] at outcome
      exact ⟨outcome.1, reports_of_bus outcome.2⟩

/-- Work runs into no other faults than the accesses of which it consists. -/
theorem Works.respects {act : Act Probed Nat} {probed : Probed} {start : Bus} {cycles : Nat}
    {accesses : List Access} {causes : List Event}
    (works : Works act probed start cycles accesses causes) (holds : start.assembly = assembly)
    : Act.Guarded (·.board.bus.assembly = assembly) (Reports assembly.policy) (act probed) := by
  have respected := Bus.respects_performAll accesses start holds
  cases performed : Access.performAll accesses start with
  | ok _ after =>
      rw [performed] at respected
      obtain ⟨final, ran, -⟩ := works.ok performed
      rw [ran]
      exact respected
  | error fault after =>
      rw [performed] at respected
      obtain ⟨last, more, ran⟩ := works.error performed
      rw [ran]
      exact ⟨respected.1, reports_of_bus respected.2⟩

theorem respects_execute
    : Respects assembly execute := by
  intro probed holds
  rcases works_execute probed with ⟨opcode, pc, after, failed, noting⟩ | ⟨_, _, _, works⟩
  · rw [failed]
    exact ⟨noting.assembly_eq.trans holds, False.elim⟩
  · exact works.respects holds

theorem respects_admitInterrupt
    : Respects assembly admitInterrupt := by
  intro probed holds
  rcases works_admitInterrupt probed with ⟨cpu, admitted, -⟩ | ⟨source, _, works⟩
  · rw [admitted]
    exact holds
  · exact works.respects holds

/-- The video unit and the end of start-up code come after everything that can fail. -/
theorem respects_step
    : Respects assembly step := by
  refine respects_execute.bind fun spent => respects_admitInterrupt.bind fun serving => ?_
  intro probed holds
  change (leaveBoot _).bus.assembly = assembly
  unfold leaveBoot
  split
  · exact holds
  · exact holds

/-- Every call respects the policy, by cases of what is asked. -/
theorem respects_call (call : Call)
    : Respects assembly call.act := by
  cases call with
  | step => exact respects_step.bind fun _ => .pure _
  | read address => exact (respects_onBus (Bus.respects_read address)).bind fun _ => .pure _
  | write address value =>
      have written : Respects assembly (write address value) := fun probed holds =>
        respects_onBus (Bus.respects_write address value)
          { probed with events := probed.events ++ [.write address value] } holds
      exact written.bind fun _ => .pure _
  | readPage page => exact (respects_onBus (Bus.respects_readPage page)).bind fun _ => .pure _

/-- So it does without a probe. -/
theorem guards_call (assembly : Bus.Assembly) (call : Call)
    : (call.act : Act Board Answer).Guards (·.bus.assembly = assembly)
        (Reports assembly.policy) := by
  intro board holds
  have keeps := Probed.besideBoard_keepsCalls.call call
  have outcome := respects_call call (.ofBoard board) holds
  cases observed : (call.act : Act Probed Answer) (.ofBoard board) with
  | ok answer after =>
      rw [observed] at outcome
      obtain ⟨_, ran, -⟩ := Probed.plain_of_ok keeps observed
      change call.act board = _ at ran
      rw [ran]
      exact outcome
  | error fault after =>
      rw [observed] at outcome
      have ran := Probed.plain_of_error keeps observed
      change call.act board = _ at ran
      rw [ran]
      exact outcome

/-- Calls leave the bus as it was put together. -/
theorem assembly_after (calls : List Call) (board : Board)
    : (after calls board).bus.assembly = board.bus.assembly := by
  induction calls generalizing board with
  | nil => rfl
  | cons call rest ih => exact (ih _).trans ((guards_call _ call).endsIn rfl)

/-- No answer reports what the policy does not allow, by induction on the calls. -/
theorem reports_of_mem_answers {calls : List Call} {board : Board} {fault : Fault}
    (given : .error fault ∈ answers calls board)
    : Reports board.bus.policy fault := by
  change Reports board.bus.assembly.policy fault
  induction calls generalizing board with
  | nil => cases given
  | cons call rest ih =>
      have guards := guards_call board.bus.assembly call
      rcases List.mem_cons.mp given with now | later
      · exact guards.answer rfl now.symm
      · have kept := guards.endsIn rfl
        exact kept ▸ ih later

end Handheld.Board
