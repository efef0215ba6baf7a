import Handheld.Proofs.Board.Works

/-! Whether interrupts are served, told from what the processor went through. The switch that EI
makes comes with a delay, for which the processor counts instructions. The history of instructions
and interrupts determines it all the same.
-/

namespace Handheld

open Board Manual Manual.Registers

-----------------------------------------------------------------------------------------
-- Histories
-----------------------------------------------------------------------------------------

/-- What decides whether interrupts are served: instructions that were executed, and interrupts
whose handlers were called.
-/
inductive Milestone where
  | instruction (instruction : Instruction)
  | interrupt (source : Interrupt)
  deriving DecidableEq, Repr

namespace Board.Event

/-- The milestone that an event is. A write is none. -/
def milestone? : Event → Option Milestone
  | .write _ _ => none
  | .instruction executed => some (.instruction executed)
  | .interrupt source => some (.interrupt source)

end Board.Event

/-- The milestones among what is noticed while an action runs on a board. -/
def milestonesOf {α : Type} (act : Act Probed α) (board : Board) : List Milestone :=
  (Probed.eventsOf act board).filterMap Event.milestone?

namespace Cpu

/-- From a processor, executions and admissions of interrupts that succeed lead to another one, in
any order and on any bus, past some milestones.
-/
inductive Runs (start : Cpu) : List Milestone → Cpu → Prop where
  | start : Runs start [] start
  | execute {history : List Milestone} {cpu : Cpu} {bus : Bus} {cycles : Nat} {after : Board}
    : Runs start history cpu
      → execute (⟨cpu, bus⟩ : Board) = .ok cycles after
      → Runs start (history ++ milestonesOf execute ⟨cpu, bus⟩) after.cpu
  | admitInterrupt {history : List Milestone} {cpu : Cpu} {bus : Bus} {cycles : Nat} {after : Board}
    : Runs start history cpu
      → admitInterrupt (⟨cpu, bus⟩ : Board) = .ok cycles after
      → Runs start (history ++ milestonesOf admitInterrupt ⟨cpu, bus⟩) after.cpu

end Cpu

namespace Milestone

/-- A milestone after some others switches interrupts on: RETI does, and so does any instruction
right after EI, except DI.
-/
inductive Unmasks (earlier : List Milestone) : Milestone → Prop where
  | returned : Unmasks earlier (.instruction .returnInterrupt)
  | delayed {instruction : Instruction}
    : earlier.getLast? = some (.instruction .enableInterrupts)
      → instruction ≠ .disableInterrupts
      → Unmasks earlier (.instruction instruction)

/-- A milestone switches interrupts off: DI does, and so does an interrupt. -/
inductive Masks : Milestone → Prop where
  | disabled : Masks (.instruction .disableInterrupts)
  | interrupt {source : Interrupt} : Masks (.interrupt source)

theorem unmasks_instruction_iff (earlier : List Milestone) (executed : Instruction)
    : (instruction executed).Unmasks earlier
      ↔ executed = .returnInterrupt
        ∨ earlier.getLast? = some (.instruction .enableInterrupts)
          ∧ executed ≠ .disableInterrupts := by
  constructor
  · rintro (_ | ⟨enabled, other⟩)
    · exact .inl rfl
    · exact .inr ⟨enabled, other⟩
  · rintro (rfl | ⟨enabled, other⟩)
    · exact .returned
    · exact .delayed enabled other

theorem masks_instruction_iff (executed : Instruction)
    : (instruction executed).Masks ↔ executed = .disableInterrupts := by
  constructor
  · rintro ⟨⟩
    rfl
  · rintro rfl
    exact .disabled

/-- Interrupts were switched on in a history, and have not been switched off since. -/
def LeavesUnmasked (history : List Milestone) : Prop :=
  ∃ earlier last later,
    history = earlier ++ last :: later
    ∧ last.Unmasks earlier
    ∧ ∀ other ∈ later, ¬other.Masks

theorem not_leavesUnmasked_nil
    : ¬LeavesUnmasked [] := by
  rintro ⟨earlier, last, later, split, -⟩
  cases earlier <;> cases split

/-- One more milestone switches interrupts on, or it leaves them on. -/
theorem leavesUnmasked_concat_iff (history : List Milestone) (milestone : Milestone)
    : LeavesUnmasked (history ++ [milestone])
      ↔ milestone.Unmasks history ∨ LeavesUnmasked history ∧ ¬milestone.Masks := by
  constructor
  · rintro ⟨earlier, last, later, split, unmasks, kept⟩
    rcases List.eq_nil_or_concat later with rfl | ⟨before, final, rfl⟩
    · obtain ⟨rfl, same⟩ := List.append_inj' split rfl
      cases same
      exact .inl unmasks
    · rw [List.concat_eq_append] at split kept
      rw [← List.cons_append, ← List.append_assoc] at split
      obtain ⟨rfl, same⟩ := List.append_inj' split rfl
      cases same
      refine .inr ⟨⟨earlier, last, before, rfl, unmasks, ?_⟩, ?_⟩
      · intro other member
        exact kept other (List.mem_append_left _ member)
      · exact kept milestone (List.mem_append_right _ List.mem_cons_self)
  · rintro (unmasks | ⟨⟨earlier, last, later, rfl, unmasks, kept⟩, stays⟩)
    · exact ⟨history, milestone, [], rfl, unmasks, fun _ => nofun⟩
    · refine ⟨earlier, last, later ++ [milestone], by simp, unmasks, ?_⟩
      intro other member
      rcases List.mem_append.mp member with member | same
      · exact kept other member
      · cases List.mem_singleton.mp same
        exact stays

end Milestone

-----------------------------------------------------------------------------------------
-- Plans
-----------------------------------------------------------------------------------------

/-- What a processor has planned for interrupts. -/
def Cpu.plan (cpu : Cpu) : Bool × Nat :=
  (ofCpu cpu).plan

/-- How a milestone changes the plan. An instruction first carries out what is due. -/
def Milestone.turn (milestone : Milestone) (plan : Bool × Nat) : Bool × Nat :=
  match milestone with
  | .instruction executed => steer executed (plan.1 || plan.2 == 1, plan.2 - 1)
  | .interrupt _ => (false, 0)

/-- Accesses are noticed as writes at most, so that their cause is the only milestone. -/
theorem milestones_of_cause {cause : Event} {milestone : Milestone}
    (passes : cause.milestone? = some milestone) (accesses : List Access)
    : (cause :: accesses.flatMap eventsOfAccess).filterMap Event.milestone? = [milestone] := by
  rw [List.filterMap_cons_some passes]
  congr 1
  induction accesses with
  | nil => rfl
  | cons access rest ih =>
      rw [List.flatMap_cons, List.filterMap_append, ih, List.append_nil]
      cases access <;> rfl

/-- A whole instruction changes the plan as its milestone does. -/
theorem plan_effect? {memory : UInt16 → UInt8} {cpu : Cpu} {effect : Effect}
    {instruction : Instruction} (known : effect? memory (ofCpu cpu) = some effect)
    (decoded : Opcode.decode? (memory cpu.pc) = some instruction)
    : effect.after.plan = (Milestone.instruction instruction).turn cpu.plan := by
  obtain ⟨rest, found, rfl⟩ := Option.map_eq_some_iff.mp known
  rw [Opcode.decode?_eq_atPlace?] at decoded
  exact plan_row? found decoded

/-- A call of a processor keeps its plan, or it turns the plan at a milestone. To serve an interrupt
interrupts have to be on.
-/
inductive Cpu.Passes (before : Cpu) : List Milestone → Cpu → Prop where
  | none {after : Cpu} (same : after.plan = before.plan) : Passes before [] after
  | one {after : Cpu} {milestone : Milestone}
    (turned : after.plan = milestone.turn before.plan)
    (served : ∀ source, milestone = .interrupt source → before.interruptsOn)
    : Passes before [milestone] after

variable {cpu : Cpu} {bus : Bus} {cycles : Nat} {after : Board}

/-- An execution passes an instruction at most. -/
theorem passes_execute (executed : execute (⟨cpu, bus⟩ : Board) = .ok cycles after)
    : cpu.Passes (milestonesOf execute ⟨cpu, bus⟩) after.cpu := by
  obtain ⟨_, observed, -⟩ :=
    Probed.ok_of_besideBoard Probed.besideBoard_keepsStep.execute executed
  unfold milestonesOf
  obtain ⟨_, _, rfl, idles | runs⟩ := execute_cases (.ofBoard ⟨cpu, bus⟩)
  · rw [idles] at observed
    injection observed with _ ended
    injection ended with ended events
    rw [← events, ← ended]
    exact .none rfl
  · rw [runs] at observed
    obtain ⟨effect, instruction, known, decoded, events, reaches⟩ := executeNext_ok observed
    change Probed.eventsOf _ _ = [] ++ _ at events
    have turned : (ofCpu after.cpu).plan = (Milestone.instruction instruction).turn cpu.plan := by
      rw [reaches.registers]
      exact (plan_effect? known decoded).trans rfl
    rw [events, List.nil_append, milestones_of_cause rfl]
    exact .one turned fun _ => nofun

/-- An admission passes an interrupt at most. -/
theorem passes_admitInterrupt
    (admitted : admitInterrupt (⟨cpu, bus⟩ : Board) = .ok cycles after)
    : cpu.Passes (milestonesOf admitInterrupt ⟨cpu, bus⟩) after.cpu := by
  obtain ⟨_, observed, -⟩ :=
    Probed.ok_of_besideBoard Probed.besideBoard_keepsStep.admitInterrupt admitted
  unfold milestonesOf
  rcases admitInterrupt_cases (.ofBoard ⟨cpu, bus⟩) with
    ⟨_, idle, -⟩ | ⟨source, serves, on, -⟩
  · rw [idle] at observed
    injection observed with _ ended
    injection ended with ended events
    rw [← events, ← ended]
    exact .none rfl
  · rw [serves] at observed
    obtain ⟨-, called, events⟩ := calling_of_serve observed
    change Probed.eventsOf _ _ = [] ++ ([.interrupt source] ++ _) at events
    change after.cpu = _ at called
    rw [events, List.nil_append, List.singleton_append, milestones_of_cause rfl, called]
    exact .one rfl fun _ _ => on

-----------------------------------------------------------------------------------------
-- Runs
-----------------------------------------------------------------------------------------

/-- A history explains a plan: interrupts are on if it leaves them so, and they are due to be
switched on right after EI.
-/
structure Explains (history : List Milestone) (plan : Bool × Nat) : Prop where
  switched : plan.1 ↔ Milestone.LeavesUnmasked history
  delayed
    : plan.2 = if history.getLast? = some (.instruction .enableInterrupts) then 1 else 0

/-- What a history explains, it explains with one more milestone, by the kind of the milestone. -/
theorem Explains.turn {history : List Milestone} {plan : Bool × Nat}
    (explains : Explains history plan) (milestone : Milestone)
    : Explains (history ++ [milestone]) (milestone.turn plan) := by
  obtain ⟨switched, delayed⟩ := explains
  cases milestone with
  | interrupt source =>
      refine ⟨iff_of_false Bool.false_ne_true ?_, by simp [Milestone.turn]⟩
      rw [Milestone.leavesUnmasked_concat_iff]
      rintro (⟨⟨⟩⟩ | ⟨-, kept⟩)
      exact kept .interrupt
  | instruction executed =>
      have due : plan.2 = 1 ↔ history.getLast? = some (.instruction .enableInterrupts) := by
        rw [delayed]
        split <;> simp [*]
      have spent : plan.2 - 1 = 0 := by
        rw [delayed]
        split <;> rfl
      refine ⟨?_, ?_⟩
      · change (steer executed (plan.1 || plan.2 == 1, plan.2 - 1)).1 ↔ _
        rw [steer_switches, Milestone.leavesUnmasked_concat_iff,
          Milestone.unmasks_instruction_iff, Milestone.masks_instruction_iff, ← switched, ← due]
        simp only [Bool.or_eq_true, beq_iff_eq]
        grind
      · change (steer executed (plan.1 || plan.2 == 1, plan.2 - 1)).2 = _
        rw [steer_delays executed spent, List.getLast?_concat]
        simp only [Option.some.injEq, Milestone.instruction.injEq]

/-- A call leads from one explained plan to another. -/
theorem Explains.passes {history milestones : List Milestone} {before after : Cpu}
    (explains : Explains history before.plan) (passes : before.Passes milestones after)
    : Explains (history ++ milestones) after.plan := by
  cases passes with
  | none same =>
      rw [List.append_nil, same]
      exact explains
  | one turned =>
      rw [turned]
      exact explains.turn _

/-- No interrupt comes first in a history, and while it is empty interrupts are off. -/
structure Unserved (history : List Milestone) (cpu : Cpu) : Prop where
  first : ∀ source, history.head? ≠ some (.interrupt source)
  off : history = [] → cpu.interruptsOn = false

/-- A call keeps it so: where the first interrupt could be served, interrupts are off. -/
theorem Unserved.passes {history milestones : List Milestone} {before after : Cpu}
    (unserved : Unserved history before) (passes : before.Passes milestones after)
    : Unserved (history ++ milestones) after := by
  cases passes with
  | none same =>
      rw [List.append_nil]
      exact ⟨unserved.first, fun empty => (congrArg Prod.fst same).trans (unserved.off empty)⟩
  | one turned served =>
      refine ⟨?_, by simp⟩
      intro source first
      cases history with
      | nil =>
          cases first
          have off := unserved.off rfl
          rw [served source rfl] at off
          cases off
      | cons earliest _ => exact unserved.first source first

namespace Cpu.Runs

variable {start cpu : Cpu} {history : List Milestone}

/-- From a processor with interrupts off the history of a run explains the plan, by induction on
the run.
-/
theorem explains (ran : start.Runs history cpu) (off : start.plan = (false, 0))
    : Explains history cpu.plan := by
  induction ran with
  | start =>
      rw [off]
      exact ⟨iff_of_false Bool.false_ne_true Milestone.not_leavesUnmasked_nil, rfl⟩
  | execute _ executed ih => exact ih.passes (passes_execute executed)
  | admitInterrupt _ admitted ih => exact ih.passes (passes_admitInterrupt admitted)

/-- While interrupts are off none is served before an instruction has been executed, by induction on
the run.
-/
theorem unserved (ran : start.Runs history cpu) (off : start.interruptsOn = false)
    : Unserved history cpu := by
  induction ran with
  | start => exact ⟨fun _ => nofun, fun _ => off⟩
  | execute _ executed ih => exact ih.passes (passes_execute executed)
  | admitInterrupt _ admitted ih => exact ih.passes (passes_admitInterrupt admitted)

end Cpu.Runs

/-- The history of a run from a new processor tells whether interrupts are on: they are if the last
milestone that switched them switched them on. After an EI that leaves them off for now, none is
served before another instruction has been executed.
-/
theorem Cpu.interruptsOn_iff_history {start cpu : Cpu} {history : List Milestone}
    (fresh : start = .afterBoot ∨ start = .powerOn) (ran : start.Runs history cpu)
    : (cpu.interruptsOn
        ↔ ∃ earlier last later,
            history = earlier ++ last :: later
            ∧ last.Unmasks earlier
            ∧ ∀ other ∈ later, ¬other.Masks)
      ∧ (history.getLast? = some (.instruction .enableInterrupts)
        → cpu.interruptsOn = false
        → ∀ more final,
            cpu.Runs more final → ∀ source, more.head? ≠ some (.interrupt source)) := by
  have off : start.plan = (false, 0) := by
    rcases fresh with rfl | rfl
    · rfl
    · rfl
  refine ⟨(ran.explains off).switched, ?_⟩
  intro _ masked more final further
  exact (further.unserved masked).first

/-- A bus on which a processor finds EI twice at power on. -/
def Bus.enabling : Bus :=
  (initial .strict).mapBoot ⟨#[0xFB, 0xFB]⟩

/-- The processor between the two. -/
def Cpu.enabling : Cpu :=
  { powerOn with pc := 1, cycles := 1, enableDelay := 1, lastCycles := 1 }

/-- The first EI leaves interrupts off, and the second one completes the first. -/
theorem Cpu.interruptsOn_iff_history_enabling
    : powerOn.Runs [.instruction .enableInterrupts] enabling
      ∧ enabling.interruptsOn = false
      ∧ (∀ more final,
        enabling.Runs more final → ∀ source, more.head? ≠ some (.interrupt source))
      ∧ ∃ enabled,
          powerOn.Runs [.instruction .enableInterrupts, .instruction .enableInterrupts] enabled
          ∧ enabled.interruptsOn := by
  let enabled := { enabling with interruptsOn := true, pc := 2, cycles := 2 }
  have once : execute (⟨powerOn, .enabling⟩ : Board)
      = .ok 1 ⟨enabling, Bus.enabling.runTimer 1⟩ := rfl
  have twice : execute (⟨enabling, .enabling⟩ : Board)
      = .ok 1 ⟨enabled, Bus.enabling.runTimer 1⟩ := rfl
  have first : powerOn.Runs [.instruction .enableInterrupts] enabling := .execute .start once
  have second
      : powerOn.Runs [.instruction .enableInterrupts, .instruction .enableInterrupts] enabled :=
    .execute first twice
  obtain ⟨-, unserved⟩ := interruptsOn_iff_history (.inr rfl) first
  obtain ⟨switched, -⟩ := interruptsOn_iff_history (.inr rfl) second
  refine ⟨first, rfl, unserved rfl rfl, enabled, second, switched.mpr ?_⟩
  exact ⟨[.instruction .enableInterrupts], .instruction .enableInterrupts, [], rfl,
    .delayed rfl (by decide), fun _ => nofun⟩

end Handheld
