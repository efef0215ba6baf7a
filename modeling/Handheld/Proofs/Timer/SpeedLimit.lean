import Handheld.Proofs.Timer
import Mathlib.Algebra.GroupWithZero.Nat
import Mathlib.Data.List.Induction

/-! How fast the counter of the timer may step. In a tick it steps at most once for every period
that the tick has begun, as long as the progress gathered before is less than a period. A write to
the control register keeps the progress and may select a shorter period: then the next tick makes up
at once for the periods that the progress amounts to.
-/

namespace Handheld.Timer

-----------------------------------------------------------------------------------------
-- Steps in a tick
-----------------------------------------------------------------------------------------

/-- How often the counter steps in a tick. -/
def stepsIn (timer : Timer) (cycles : Nat) : Nat :=
  if timer.enabled then (timer.progress + cycles) / timer.period else 0

/-- Periods that begin in a tick: as many as its cycles fill, and one more for what is left. -/
def periodsBegun (timer : Timer) (cycles : Nat) : Nat :=
  (cycles + (timer.period - 1)) / timer.period

variable {timer : Timer}

theorem stepsIn_of_on (on : timer.enabled) (cycles : Nat)
    : timer.stepsIn cycles = (timer.progress + cycles) / timer.period :=
  if_pos on

theorem stepsIn_of_off (off : timer.enabled = false) (cycles : Nat)
    : timer.stepsIn cycles = 0 :=
  if_neg (by simp [off])

/-- A tick counts these steps one by one. -/
theorem tick_eq_count (timer : Timer) (cycles : Nat)
    : ((timer.tick cycles).1.counter, (timer.tick cycles).2)
      = count timer.modulo (timer.stepsIn cycles) timer.counter false := by
  cases on : timer.enabled with
  | false => rw [tick_of_off on, stepsIn_of_off on, count]
  | true => rw [tick_of_on on, stepsIn_of_on on]

/-- Progress of less than a period makes for no step that is not due. -/
theorem stepsIn_le_of_progress_lt (within : timer.enabled → timer.progress < timer.period)
    (cycles : Nat)
    : timer.stepsIn cycles ≤ timer.periodsBegun cycles := by
  unfold stepsIn periodsBegun
  split
  case isTrue on =>
    have less := within on
    exact Nat.div_le_div_right (by omega)
  case isFalse => exact Nat.zero_le _

/-- With more, a tick of one period already steps twice. -/
theorem periodsBegun_lt_of_le_progress (on : timer.enabled) (due : timer.period ≤ timer.progress)
    : timer.periodsBegun timer.period < timer.stepsIn timer.period := by
  have positive := timer.period_pos
  have begun : timer.periodsBegun timer.period = 1 := by
    unfold periodsBegun
    rw [Nat.add_div_left _ positive, Nat.div_eq_of_lt (by omega)]
  have twice : timer.period * 2 ≤ timer.progress + timer.period := by omega
  rw [begun, stepsIn_of_on on]
  exact (Nat.le_div_iff_mul_le positive).mpr (Nat.mul_comm .. ▸ twice)

/-- No period is longer than 256 machine cycles, and all of them divide it. -/
theorem period_cases (timer : Timer)
    : timer.period = 4 ∨ timer.period = 16 ∨ timer.period = 64 ∨ timer.period = 256 := by
  unfold period
  split <;> simp

/-- Progress of at most the longest period makes for a limited number of steps that are not due. -/
theorem stepsIn_le_of_progress_small (small : timer.progress < 256) (cycles : Nat)
    : timer.stepsIn cycles ≤ timer.periodsBegun cycles + (256 / timer.period - 1) := by
  unfold stepsIn periodsBegun
  split
  · rcases timer.period_cases with same | same | same | same <;> rw [same] <;> omega
  · exact Nat.zero_le _

/-- How often the counter steps in some ticks, one after another. -/
def stepsInAll : Timer → List Nat → Nat
  | _, [] => 0
  | timer, cycles :: rest => timer.stepsIn cycles + (timer.tick cycles).1.stepsInAll rest

/-- Two ticks step the counter as often as one of both. -/
theorem stepsIn_add (timer : Timer) (first second : Nat)
    : timer.stepsIn (first + second)
      = timer.stepsIn first + (timer.tick first).1.stepsIn second := by
  cases on : timer.enabled with
  | false =>
      have off : (timer.tick first).1.enabled = false := (enabled_tick ..).trans on
      rw [stepsIn_of_off on, stepsIn_of_off on, stepsIn_of_off off]
  | true =>
      have still : (timer.tick first).1.enabled := (enabled_tick ..).trans on
      have left : (timer.tick first).1.progress = (timer.progress + first) % timer.period := by
        rw [tick_of_on on]
      rw [stepsIn_of_on on, stepsIn_of_on on, stepsIn_of_on still, period_tick, left]
      exact (periods_add timer.progress first second timer.period_pos).1

/-- So do any number of them, by induction. -/
theorem stepsInAll_le (timer : Timer) (amounts : List Nat)
    : timer.stepsInAll amounts ≤ timer.stepsIn amounts.sum := by
  induction amounts generalizing timer with
  | nil => exact Nat.zero_le _
  | cons cycles rest ih =>
      rw [stepsInAll, List.sum_cons, stepsIn_add]
      exact Nat.add_le_add_left (ih _) _

-----------------------------------------------------------------------------------------
-- Ticks and writes
-----------------------------------------------------------------------------------------

/-- What can be done with a timer. -/
inductive Action where
  | tick (cycles : Nat)
  | write (register : Register) (value : UInt8)

def perform (timer : Timer) : Action → Timer
  | .tick cycles => (timer.tick cycles).1
  | .write register value => timer.write register value

/-- Some operations, one after another. -/
def performAll (timer : Timer) (actions : List Action) : Timer :=
  actions.foldl perform timer

theorem performAll_concat (timer : Timer) (actions : List Action) (action : Action)
    : timer.performAll (actions ++ [action]) = (timer.performAll actions).perform action :=
  List.foldl_append

/-- An operation that leaves the progress alone: a tick while the counter is not enabled, or a write
to a register other than the counter.
-/
def Action.KeepsProgress (timer : Timer) : Action → Prop
  | .tick _ => timer.enabled = false
  | .write register _ => register ≠ .counter

theorem progress_perform {action : Action} (keeps : action.KeepsProgress timer)
    : (timer.perform action).progress = timer.progress := by
  cases action with
  | tick cycles => rw [perform, tick_of_off keeps]
  | write register value =>
      cases register with
      | counter => exact absurd rfl keeps
      | _ => rfl

/-- In some operations on a new timer, a tick has left its progress towards a period, and the others
since have left it alone. They may have selected another period.
-/
inductive LeftTowards (period : Nat) : List Action → Prop where
  | tick {earlier cycles} (on : (initial.performAll earlier).enabled)
    (selected : (initial.performAll earlier).period = period)
    : LeftTowards period (earlier ++ [.tick cycles])
  | later {earlier action} (left : LeftTowards period earlier)
    (keeps : action.KeepsProgress (initial.performAll earlier))
    : LeftTowards period (earlier ++ [action])

/-- Progress that a tick has left is less than the period that was selected then. -/
theorem LeftTowards.progress_lt {period : Nat} {actions : List Action}
    (left : LeftTowards period actions)
    : (initial.performAll actions).progress < period := by
  induction left with
  | @tick earlier cycles on selected =>
      rw [performAll_concat, perform, tick_of_on on, ← selected]
      exact Nat.mod_lt _ (period_pos _)
  | later left keeps ih =>
      rw [performAll_concat, progress_perform keeps]
      exact ih

theorem LeftTowards.period_le {period : Nat} {actions : List Action}
    (left : LeftTowards period actions)
    : period ≤ 256 := by
  induction left with
  | @tick earlier cycles on selected =>
      have known := (initial.performAll earlier).period_cases
      omega
  | later left keeps ih => exact ih

/-- All progress was left by a tick, by induction from the last operation on: a write to the counter
drops it.
-/
theorem exists_leftTowards (actions : List Action)
    : (initial.performAll actions).progress ≠ 0 → ∃ period, LeftTowards period actions := by
  induction actions using List.reverseRecOn with
  | nil =>
      intro gathered
      exact absurd rfl gathered
  | append_singleton earlier action ih =>
      intro gathered
      by_cases keeps : action.KeepsProgress (initial.performAll earlier)
      · rw [performAll_concat, progress_perform keeps] at gathered
        obtain ⟨period, left⟩ := ih gathered
        exact ⟨period, left.later keeps⟩
      · cases action with
        | tick cycles => exact ⟨_, .tick ((Bool.not_eq_false _).mp keeps) rfl⟩
        | write register value =>
            cases register with
            | counter =>
                rw [performAll_concat] at gathered
                exact absurd rfl gathered
            | _ => exact absurd Register.noConfusion keeps

/-- So the progress is always less than the longest period. -/
theorem progress_lt (actions : List Action)
    : (initial.performAll actions).progress < 256 := by
  by_cases gathered : (initial.performAll actions).progress = 0
  · rw [gathered]
    decide
  · obtain ⟨period, left⟩ := exists_leftTowards actions gathered
    exact Nat.lt_of_lt_of_le left.progress_lt left.period_le

-----------------------------------------------------------------------------------------
-- The limit
-----------------------------------------------------------------------------------------

/-- In every tick of a timer the counter steps at most once for every period begun, and so it does
over several ticks, exactly as long as the progress gathered before is less than the selected
period. It is more only if, since a tick left it towards a longer period, writes to the control
register have selected a shorter one and nothing has used or dropped it. Then the counter may step
more often, by as many steps as there are shorter periods in the longest one at most.
-/
theorem steps_within_limit_iff (actions : List Action)
    : let timer := initial.performAll actions
      (∀ cycles,
        ((timer.tick cycles).1.counter, (timer.tick cycles).2)
          = count timer.modulo (timer.stepsIn cycles) timer.counter false)
      ∧ ((∀ cycles, timer.stepsIn cycles ≤ timer.periodsBegun cycles)
        ↔ (timer.enabled → timer.progress < timer.period))
      ∧ ((timer.enabled → timer.progress < timer.period)
        → ∀ amounts, timer.stepsInAll amounts ≤ timer.periodsBegun amounts.sum)
      ∧ (timer.period ≤ timer.progress
        → ∃ longer, LeftTowards longer actions ∧ timer.period < longer)
      ∧ ∀ cycles,
          timer.stepsIn cycles ≤ timer.periodsBegun cycles + (256 / timer.period - 1) := by
  intro timer
  refine ⟨timer.tick_eq_count, ⟨?_, stepsIn_le_of_progress_lt⟩, ?_, ?_, ?_⟩
  · intro limited on
    by_contra reached
    have exceeded := periodsBegun_lt_of_le_progress on (Nat.le_of_not_lt reached)
    exact absurd (limited timer.period) (Nat.not_le_of_lt exceeded)
  · intro within amounts
    exact Nat.le_trans (timer.stepsInAll_le amounts) (stepsIn_le_of_progress_lt within _)
  · intro due
    have gathered : timer.progress ≠ 0 := Nat.ne_of_gt (Nat.lt_of_lt_of_le timer.period_pos due)
    obtain ⟨longer, left⟩ := exists_leftTowards actions gathered
    exact ⟨longer, left, Nat.lt_of_le_of_lt due left.progress_lt⟩
  · exact stepsIn_le_of_progress_small (progress_lt actions)

/-- A tick leaves almost a period of 256 machine cycles, and then a period of four is selected. -/
def shortened : List Action :=
  [.write .control 0x04, .tick 255, .write .control 0x05]

/-- One machine cycle later the counter has stepped 64 times, although only one period has begun. -/
theorem limit_exceeded_shortened
    : let timer := initial.performAll shortened
      timer.enabled
      ∧ timer.period = 4
      ∧ timer.counter = 0
      ∧ (timer.tick 1).1.counter = 64
      ∧ timer.stepsIn 1 = 64
      ∧ timer.periodsBegun 1 = 1 := by
  decide +kernel

end Handheld.Timer
