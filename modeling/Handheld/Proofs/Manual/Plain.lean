import Handheld.Proofs.Manual.Layout

/-! What most instructions leave alone. Of all instructions only STOP restarts the divider by
itself, and only DI, EI and RETI have a say in whether interrupts are served. Others can reach the
divider by a write at most, like any other register.
-/

namespace Handheld.Manual

/-- Whether interrupts are served, and after how many instructions they will be. -/
def Registers.plan (r : Registers) : Bool × Nat :=
  (r.interruptsOn, r.enableIn)

namespace Registers

variable (r : Registers)

theorem plan_setByte (code : Fin 8) (value : UInt8)
    : (r.setByte code value).plan = r.plan := by
  match code with
  | 0 | 1 | 2 | 3 | 4 | 5 | 6 | 7 => rfl

theorem plan_setPair (code : Fin 4) (value : UInt16)
    : (r.setPair code value).plan = r.plan := by
  match code with
  | 0 | 1 | 2 | 3 => rfl

theorem plan_setStackPair (code : Fin 4) (value : UInt16)
    : (r.setStackPair code value).plan = r.plan := by
  match code with
  | 0 | 1 | 2 | 3 => rfl

end Registers

/-- An effect that leaves the divider to its writes and interrupts as they are planned. -/
structure Effect.Plain (effect : Effect) (plan : Bool × Nat) : Prop where
  calm : .restartDivider ∉ effect.accesses
  steady : effect.after.plan = plan

namespace Effect.Plain

variable {memory : UInt16 → UInt8} {r after : Registers} {plan : Bool × Nat}

theorem quiet (cycles : Nat) (same : after.plan = plan)
    : (Manual.quiet after cycles).Plain plan :=
  ⟨List.not_mem_nil, same⟩

theorem reading {rest : UInt8 → Effect} (address : UInt16)
    (plain : ∀ value, (rest value).Plain plan)
    : (Manual.reading memory address rest).Plain plan := by
  refine ⟨?_, (plain _).steady⟩
  intro restarts
  rcases List.mem_cons.mp restarts with same | later
  · cases same
  · exact (plain _).calm later

theorem immediate {rest : UInt8 → Registers → Effect}
    (plain : ∀ value next, next.plan = r.plan → (rest value next).Plain r.plan)
    : (Manual.immediate memory r rest).Plain r.plan :=
  .reading _ fun value => plain value _ rfl

theorem immediateWord {rest : UInt16 → Registers → Effect}
    (plain : ∀ value next, next.plan = r.plan → (rest value next).Plain r.plan)
    : (Manual.immediateWord memory r rest).Plain r.plan := by
  refine .immediate ?_
  intro low middle first
  rw [← first]
  refine .immediate ?_
  intro high next second
  rw [first]
  exact plain _ next (second.trans first)

theorem popping {rest : UInt16 → Registers → Effect}
    (plain : ∀ value next, next.plan = r.plan → (rest value next).Plain r.plan)
    : (Manual.popping memory r rest).Plain r.plan :=
  .reading _ fun _ => .reading _ fun _ => plain _ _ rfl

theorem writing {accesses : List Access} {cycles : Nat} (address : UInt16) (value : UInt8)
    (plain : Effect.Plain { after, accesses, cycles } plan)
    : Effect.Plain { after, accesses := .write address value :: accesses, cycles } plan := by
  refine ⟨?_, plain.steady⟩
  intro restarts
  rcases List.mem_cons.mp restarts with same | later
  · cases same
  · exact plain.calm later

theorem pushing (value : UInt16) (cycles : Nat) (same : after.plan = plan)
    : (Manual.pushing r value after cycles).Plain plan :=
  .writing _ _ (.writing _ _ (.quiet cycles same))

theorem operand {rest : UInt8 → Effect} (code : Fin 8)
    (plain : ∀ value, (rest value).Plain plan)
    : (Manual.operand memory r code rest).Plain plan := by
  unfold Manual.operand
  split
  · exact .reading _ plain
  · exact plain _

theorem store (code : Fin 8) (value : UInt8) (inRegister inMemory : Nat) (same : r.plan = plan)
    : (Manual.store r code value inRegister inMemory).Plain plan := by
  unfold Manual.store
  split
  · exact .writing _ _ (.quiet _ same)
  · exact .quiet _ ((r.plan_setByte code value).trans same)

theorem branch {taken untaken : Effect} (condition : Bool) (whenTrue : taken.Plain plan)
    (whenFalse : untaken.Plain plan)
    : Effect.Plain (if condition then taken else untaken) plan := by
  cases condition with
  | true => exact whenTrue
  | false => exact whenFalse

end Effect.Plain

open Effect (Plain)

variable {memory : UInt16 → UInt8} {r : Registers}

theorem plain_relativeJumps {y : Fin 8} (other : y ≠ 2)
    : (relativeJumps memory r y).Plain r.plan := by
  unfold relativeJumps
  split
  · exact .quiet 1 rfl
  · refine .immediateWord fun _ _ same => ?_
    exact .writing _ _ (.writing _ _ (.quiet 5 same))
  · exact absurd rfl other
  · refine .immediate fun _ _ same => ?_
    exact .quiet 3 same
  · refine .immediate fun _ _ same => ?_
    exact .branch _ (.quiet 3 same) (.quiet 2 same)

theorem plan_indirect (code : Fin 4)
    : (indirect r code).2.plan = r.plan := by
  match code with
  | 0 | 1 | 2 | 3 => rfl

theorem plain_firstQuarter {y z : Fin 8} (other : ¬(y = 2 ∧ z = 0))
    : (firstQuarter memory r y z).Plain r.plan := by
  unfold firstQuarter
  split
  · exact plain_relativeJumps fun same => other ⟨same, rfl⟩
  · unfold wordLoads
    split
    · refine .immediateWord fun _ _ same => ?_
      exact .quiet 3 ((Registers.plan_setPair _ _ _).trans same)
    · exact .quiet 2 (Registers.plan_setPair _ _ _)
  · unfold indirectLoads
    dsimp only
    split
    · exact .writing _ _ (.quiet 2 (plan_indirect _))
    · exact .reading _ fun _ => .quiet 2 (plan_indirect _)
  · unfold wordSteps
    dsimp only
    split
    · exact .quiet 2 (Registers.plan_setPair _ _ _)
    · exact .quiet 2 (Registers.plan_setPair _ _ _)
  · exact .operand y fun _ => .store y _ 1 3 rfl
  · exact .operand y fun _ => .store y _ 1 3 rfl
  · refine .immediate fun _ _ => ?_
    exact .store y _ 2 3
  · unfold accumulatorOps
    split
    all_goals exact .quiet 1 rfl

theorem plain_loads (y z : Fin 8)
    : (loads memory r y z).Plain r.plan := by
  unfold loads
  split
  · exact .quiet 1 rfl
  · exact .operand z fun _ => .store y _ _ _ rfl

theorem plain_conditionalReturns (y : Fin 8)
    : (conditionalReturns memory r y).Plain r.plan := by
  unfold conditionalReturns
  split
  · refine .immediate fun _ _ same => ?_
    exact .writing _ _ (.quiet 3 same)
  · refine .immediate fun _ _ same => ?_
    exact .quiet 4 same
  · refine .immediate fun _ _ same => ?_
    exact .reading _ fun _ => .quiet 3 same
  · refine .immediate fun _ _ same => ?_
    exact .quiet 3 ((Registers.plan_setPair _ _ _).trans same)
  · exact .branch _ (.popping fun _ _ same => .quiet 5 same) (.quiet 2 rfl)

theorem plain_pops {y : Fin 8} (other : y ≠ 3)
    : (pops memory r y).Plain r.plan := by
  unfold pops
  split
  · refine .popping fun _ _ same => ?_
    exact .quiet 4 same
  · exact absurd rfl other
  · exact .quiet 1 rfl
  · exact .quiet 2 rfl
  · refine .popping fun _ _ same => ?_
    exact .quiet 3 ((Registers.plan_setStackPair _ _ _).trans same)

theorem plain_conditionalJumps (y : Fin 8)
    : (conditionalJumps memory r y).Plain r.plan := by
  unfold conditionalJumps
  split
  · exact .writing _ _ (.quiet 2 rfl)
  · refine .immediateWord fun _ _ same => ?_
    exact .writing _ _ (.quiet 4 same)
  · exact .reading _ fun _ => .quiet 2 rfl
  · refine .immediateWord fun _ _ same => ?_
    exact .reading _ fun _ => .quiet 4 same
  · refine .immediateWord fun _ _ same => ?_
    exact .branch _ (.quiet 4 same) (.quiet 3 same)

theorem plain_extended (x : Fin 4) (y z : Fin 8)
    : (extended memory r x y z).Plain r.plan := by
  unfold extended
  refine .operand z fun _ => ?_
  split
  · exact .store z _ 2 4 rfl
  · exact .quiet _ rfl
  · exact .store z _ 2 4 rfl
  · exact .store z _ 2 4 rfl

theorem plain_lastQuarter? {y z : Fin 8} {effect : Effect} (notReturn : ¬(y = 3 ∧ z = 1))
    (notDisable : ¬(y = 6 ∧ z = 3)) (notEnable : ¬(y = 7 ∧ z = 3))
    (found : lastQuarter? memory r y z = some effect)
    : effect.Plain r.plan := by
  unfold lastQuarter? at found
  split at found
  · cases found
    exact plain_conditionalReturns y
  · cases found
    exact plain_pops fun same => notReturn ⟨same, rfl⟩
  · cases found
    exact plain_conditionalJumps y
  · unfold jumps? at found
    split at found
    · cases found
      refine .immediateWord fun _ _ same => ?_
      exact .quiet 4 same
    · cases found
      refine .immediate fun _ _ same => ?_
      rw [← same]
      exact plain_extended _ _ _
    · exact absurd ⟨rfl, rfl⟩ notDisable
    · exact absurd ⟨rfl, rfl⟩ notEnable
    · cases found
  · unfold conditionalCalls? at found
    split at found
    · cases found
      refine .immediateWord fun _ _ same => ?_
      exact .branch _ (.pushing _ 6 same) (.quiet 3 same)
    · cases found
  · unfold pushes? at found
    split at found
    · cases found
      refine .immediateWord fun _ _ same => ?_
      exact .pushing _ 6 same
    · cases found
    · cases found
    · cases found
    · cases found
      exact .pushing _ 4 rfl
  · cases found
    refine .immediate fun _ _ same => ?_
    exact .quiet 2 same
  · cases found
    exact .pushing _ 4 rfl

-----------------------------------------------------------------------------------------
-- The rows that are not plain
-----------------------------------------------------------------------------------------

/-- The instructions whose rows are not plain, and the places of these rows. -/
def particular : List (Instruction × Fin 4 × Fin 8 × Fin 8) :=
  [(.stop, 0, 2, 0), (.returnInterrupt, 3, 3, 1), (.disableInterrupts, 3, 6, 3),
    (.enableInterrupts, 3, 7, 3)]

/-- Each of them stands at one place of the table. -/
theorem atPlace?_eq_iff_of_particular
    : ∀ entry ∈ particular, ∀ x y z,
        Opcode.atPlace? x y z = some entry.1 ↔ (x, y, z) = entry.2 := by
  decide +kernel

theorem plain_row? {x : Fin 4} {y z : Fin 8} {effect : Effect}
    (found : row? memory r x y z = some effect)
    (other : ∀ entry ∈ particular, (x, y, z) ≠ entry.2)
    : effect.Plain r.plan := by
  simp only [particular, List.forall_mem_cons, ne_eq, Prod.mk.injEq] at other
  obtain ⟨notStop, notReturn, notDisable, notEnable, -⟩ := other
  unfold row? at found
  split at found
  · cases found
    exact plain_firstQuarter fun place => notStop ⟨rfl, place⟩
  · cases found
    exact plain_loads y z
  · cases found
    exact .operand z fun _ => .quiet _ rfl
  · exact plain_lastQuarter? (fun place => notReturn ⟨rfl, place⟩)
      (fun place => notDisable ⟨rfl, place⟩) (fun place => notEnable ⟨rfl, place⟩) found

/-- STOP restarts the divider, and no other row does. -/
theorem restartDivider_mem_row?_iff {x : Fin 4} {y z : Fin 8} {effect : Effect}
    (found : row? memory r x y z = some effect)
    : .restartDivider ∈ effect.accesses ↔ Opcode.atPlace? x y z = some .stop := by
  rw [atPlace?_eq_iff_of_particular (.stop, 0, 2, 0) (by simp [particular])]
  by_cases place : ∃ entry ∈ particular, (x, y, z) = entry.2
  · obtain ⟨entry, member, place⟩ := place
    simp only [particular, List.mem_cons, List.not_mem_nil, or_false] at member
    rcases member with rfl | rfl | rfl | rfl
    all_goals
      cases place
      cases found
    · exact iff_of_true (List.mem_cons_of_mem _ List.mem_cons_self) rfl
    · exact iff_of_false (by simp [pops, popping, reading, quiet]) (by decide)
    · exact iff_of_false List.not_mem_nil (by decide)
    · exact iff_of_false List.not_mem_nil (by decide)
  · have other : ∀ entry ∈ particular, (x, y, z) ≠ entry.2 :=
      fun entry member same => place ⟨entry, member, same⟩
    exact iff_of_false (plain_row? found other).calm (other _ List.mem_cons_self)

/-- How an instruction changes what is planned for interrupts. -/
def steer (instruction : Instruction) (plan : Bool × Nat) : Bool × Nat :=
  match instruction with
  | .disableInterrupts => (false, 0)
  | .enableInterrupts => (plan.1, 1)
  | .returnInterrupt => (true, plan.2)
  | _ => plan

/-- Interrupts are on after an instruction that switches them on, or if they stay on. -/
theorem steer_switches (instruction : Instruction) (plan : Bool × Nat)
    : (steer instruction plan).1
      ↔ instruction = .returnInterrupt ∨ plan.1 ∧ instruction ≠ .disableInterrupts := by
  unfold steer
  split <;> simp_all

/-- After EI alone they are due to be switched on, if nothing else was due. -/
theorem steer_delays (instruction : Instruction) {plan : Bool × Nat} (spent : plan.2 = 0)
    : (steer instruction plan).2 = if instruction = .enableInterrupts then 1 else 0 := by
  unfold steer
  split <;> simp_all

/-- Each row changes the plan as its instruction does. -/
theorem plan_row? {x : Fin 4} {y z : Fin 8} {effect : Effect} {instruction : Instruction}
    (found : row? memory r x y z = some effect)
    (named : Opcode.atPlace? x y z = some instruction)
    : effect.after.plan = steer instruction r.plan := by
  by_cases place : ∃ entry ∈ particular, (x, y, z) = entry.2
  · obtain ⟨entry, member, place⟩ := place
    simp only [particular, List.mem_cons, List.not_mem_nil, or_false] at member
    rcases member with rfl | rfl | rfl | rfl
    all_goals
      cases place
      cases found
      cases named
      rfl
  · have other : ∀ entry ∈ particular, (x, y, z) ≠ entry.2 :=
      fun entry member same => place ⟨entry, member, same⟩
    have unlisted : ∀ entry ∈ particular, instruction ≠ entry.1 := by
      rintro entry member rfl
      exact other entry member ((atPlace?_eq_iff_of_particular entry member x y z).mp named)
    simp only [particular, List.forall_mem_cons] at unlisted
    obtain ⟨-, notReturn, notDisable, notEnable, -⟩ := unlisted
    rw [(plain_row? found other).steady]
    unfold steer
    split
    · exact absurd rfl notDisable
    · exact absurd rfl notEnable
    · exact absurd rfl notReturn
    · rfl

end Handheld.Manual
