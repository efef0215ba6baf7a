import Handheld.Proofs.Board.Calls
import Handheld.Proofs.Video.Elapse

/-! Bits that stay clear. Whatever is asked of a board, failing or not, the lower half of its flag
register stays clear, a switch-on of interrupts is at most one instruction away, and nothing but the
five sources is ever requested.
-/

namespace Handheld

-----------------------------------------------------------------------------------------
-- Requests
-----------------------------------------------------------------------------------------

/-- Nothing but the five sources is requested. -/
def Bus.RequestsSources (bus : Bus) : Prop :=
  bus.requests.toNat < 2 ^ 5

/-- Raising a source sets one of the lower five bits. -/
theorem Interrupt.toNat_raiseIf_lt (source : Interrupt) (condition : Bool) {requests : UInt8}
    (low : requests.toNat < 2 ^ 5)
    : (source.raiseIf condition requests).toNat < 2 ^ 5 := by
  have bit : source.bit < 5 := by cases source <;> decide
  unfold raiseIf
  split
  · rw [UInt8.toNat_or, toNat_mask]
    exact Nat.or_lt_two_pow low (Nat.pow_lt_pow_right (by decide) bit)
  · exact low

namespace Probed

/-- A write to the requests drops the upper three bits; everything else raises sources or takes
some back.
-/
theorem requestsSources_keptByStep
    : KeptByStep fun bus _ => bus.RequestsSources where
  instruction _ low := low
  noting := by
    intro _ _ _ ⟨noted, same⟩ low
    subst same
    exact low
  write {bus _} address value low := by
    unfold Bus.RequestsSources
    by_cases own : address = 0xFF0F
    · rw [own, bus.requests_write_requests, UInt8.toNat_and]
      exact Nat.and_lt_two_pow _ (by decide)
    · rw [bus.requests_write_of_ne own]
      exact low
  resetDivider low := low
  runTimer _ low := Interrupt.toNat_raiseIf_lt .timer _ low
  acknowledge {bus _} source low := by
    change (bus.requests &&& ~~~source.mask).toNat < 2 ^ 5
    rw [UInt8.toNat_and]
    exact Nat.lt_of_le_of_lt Nat.and_le_left low
  runVideo {bus _} clocks low := by
    have kept (source : Interrupt) (condition : Bool) (requests : UInt8)
        (_ : source = .vblank ∨ source = .lcdStatus) (low : requests.toNat < 2 ^ 5)
        : (source.raiseIf condition requests).toNat < 2 ^ 5 :=
      source.toNat_raiseIf_lt condition low
    exact Video.requests_advance_preserves kept bus.video clocks low
  unmapBoot low := low

end Probed

-----------------------------------------------------------------------------------------
-- The processor
-----------------------------------------------------------------------------------------

/-- The lower half of the flag register is clear, and interrupts are switched on after the next
instruction if that is planned.
-/
structure Cpu.Reserved (cpu : Cpu) : Prop where
  padding : cpu.f &&& 0x0F = 0
  delay : cpu.enableDelay ≤ 1

/-- The plan to switch interrupts on is settled at once. -/
theorem Cpu.Reserved.planned {cpu : Cpu} (reserved : cpu.Reserved) (wasDue : Bool)
    : (Board.settleEnable wasDue { cpu with enableDelay := 2 }).Reserved := by
  have planned : ¬(2 : UInt8) = 0 := by decide
  have settled : (2 - 1 : UInt8) ≤ 1 := by decide
  unfold Board.settleEnable
  rw [if_neg planned]
  exact ⟨reserved.padding, settled⟩

namespace Board

/-- A modest change keeps both. -/
theorem Modest.reserved {change : Cpu → Cpu} (modest : Modest change) {cpu : Cpu}
    (reserved : cpu.Reserved)
    : (change cpu).Reserved where
  padding := modest.padding cpu reserved.padding
  delay := UInt8.le_trans (modest.delay cpu) reserved.delay

/-- An action of the bus leaves the processor alone. -/
theorem cpu_endsIn_onBus {α : Type} (act : Act Bus α) (board : Board)
    : ((onBus act).endsIn board).cpu = board.cpu := by
  simp only [Act.endsIn, onBus, Housing.onBoard]
  cases act board.bus <;> rfl

/-- Whatever is asked of a board keeps both, part by part: only the processor's own changes matter.
-/
theorem reserved_keepsCalls
    : (Coupling.ofInvariant fun board : Board => board.cpu.Reserved).KeepsCalls where
  observe _ := .ofInvariant fun _ reserved => reserved
  keyPressed := .ofInvariant fun _ reserved => reserved
  modifyCpu modest := .ofInvariant fun _ reserved => modest.reserved reserved
  planEnable wasDue := .ofInvariant fun _ reserved => reserved.planned wasDue
  instruction _ := .ofInvariant fun _ reserved => reserved
  read _ := .ofInvariant fun board reserved => by
    rw [read, cpu_endsIn_onBus]
    exact reserved
  write address value := .ofInvariant fun board reserved => by
    change ((onBus (Bus.write address value)).endsIn board).cpu.Reserved
    rw [cpu_endsIn_onBus]
    exact reserved
  resetDivider := .ofInvariant fun _ reserved => reserved
  runTimer _ := .ofInvariant fun _ reserved => reserved
  nextInterrupt := .ofInvariant fun _ reserved => reserved
  acknowledge _ := .ofInvariant fun _ reserved => reserved
  runVideo _ := .ofInvariant fun _ reserved => reserved
  leaveBoot := .ofInvariant fun board reserved => by
    change board.leaveBoot.cpu.Reserved
    unfold leaveBoot
    split
    · exact reserved
    · exact reserved
  readPage _ := .ofInvariant fun board reserved => by
    rw [cpu_endsIn_onBus]
    exact reserved

end Board

end Handheld
