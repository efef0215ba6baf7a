import Handheld.Timer

/-! The timer over a stretch of time. Running it for one stretch and then for another is running
it for both at once, and it asks for an interrupt in the whole when it asks in a part.
-/

namespace Handheld.Timer

/-- The counter after a number of steps, and whether any of them reloaded it. -/
def count (reload : UInt8) : Nat → UInt8 → Bool → UInt8 × Bool
  | 0, value, overflowed => (value, overflowed)
  | steps + 1, value, overflowed =>
      if value = 0xFF then count reload steps reload true
      else count reload steps (value + 1) overflowed

/-- Counting off periods divides the progress by them: the quotient is how often the counter steps,
and the remainder is left. By induction on the periods that are counted off.
-/
theorem countOff_eq (timer : Timer) (overflowed : Bool)
    : timer.countOff overflowed
      = let counted := count timer.modulo (timer.progress / timer.period) timer.counter overflowed
        ({ timer with counter := counted.1, progress := timer.progress % timer.period },
          counted.2) := by
  fun_induction countOff timer overflowed with
  | case1 timer overflowed due progress last ih =>
      have periods := Nat.div_eq_sub_div timer.period_pos due
      rw [ih, periods, count, if_pos last, Nat.mod_eq_sub_mod due]
      rfl
  | case2 timer overflowed due progress further ih =>
      have periods := Nat.div_eq_sub_div timer.period_pos due
      rw [ih, periods, count, if_neg further, Nat.mod_eq_sub_mod due]
      rfl
  | case3 timer overflowed short =>
      have begun := Nat.lt_of_not_le short
      rw [Nat.div_eq_of_lt begun, Nat.mod_eq_of_lt begun]
      rfl

/-- A reload on the way is remembered, whatever the counter does. -/
theorem count_overflowed (reload : UInt8) (steps : Nat) (value : UInt8) (overflowed : Bool)
    : count reload steps value overflowed
      = ((count reload steps value false).1,
        overflowed || (count reload steps value false).2) := by
  induction steps generalizing value overflowed with
  | zero => simp only [count, Bool.or_false]
  | succ steps ih =>
      simp only [count]
      split
      · rw [ih reload true, Bool.true_or, Bool.or_true]
      · exact ih _ overflowed

/-- Counting goes on from where it was, by induction on the first steps. -/
theorem count_add (reload : UInt8) (first second : Nat) (value : UInt8)
    : count reload (first + second) value false
      = ((count reload second (count reload first value false).1 false).1,
        (count reload first value false).2
          || (count reload second (count reload first value false).1 false).2) := by
  induction first generalizing value with
  | zero => rw [Nat.zero_add, count, Bool.false_or]
  | succ first ih =>
      rw [Nat.succ_add]
      simp only [count]
      split
      · rw [count_overflowed reload (first + second), count_overflowed reload first, ih]
        simp only [Bool.true_or]
      · exact ih _

/-- Steps of the counter in two stretches: those of the first, and those that the second makes with
the progress left over.
-/
theorem periods_add {period : Nat} (progress first second : Nat) (positive : 0 < period)
    : (progress + (first + second)) / period
        = (progress + first) / period + ((progress + first) % period + second) / period
      ∧ (progress + (first + second)) % period
        = ((progress + first) % period + second) % period := by
  have split := Nat.div_add_mod (progress + first) period
  have whole : progress + (first + second)
      = ((progress + first) % period + second) + period * ((progress + first) / period) := by
    omega
  rw [whole]
  constructor
  · rw [Nat.add_mul_div_left _ _ positive, Nat.add_comm]
  · rw [Nat.add_mul_mod_self_left]

theorem tick_of_on {timer : Timer} (on : timer.enabled) (cycles : Nat)
    : timer.tick cycles
      = let counted := count timer.modulo ((timer.progress + cycles) / timer.period) timer.counter
          false
        ({ timer with
            divider := (timer.divider + cycles) % dividerTurn
            counter := counted.1
            progress := (timer.progress + cycles) % timer.period },
          counted.2) := by
  have still : { timer with divider := (timer.divider + cycles) % dividerTurn }.enabled := on
  rw [tick, if_pos still, countOff_eq]
  rfl

theorem tick_of_off {timer : Timer} (off : timer.enabled = false) (cycles : Nat)
    : timer.tick cycles
      = ({ timer with divider := (timer.divider + cycles) % dividerTurn }, false) := by
  have still : { timer with divider := (timer.divider + cycles) % dividerTurn }.enabled = false :=
    off
  rw [tick, if_neg (by simp [still])]

/-- The divider turns whether or not the counter is enabled. -/
theorem divider_tick (timer : Timer) (cycles : Nat)
    : (timer.tick cycles).1.divider = (timer.divider + cycles) % dividerTurn := by
  cases on : timer.enabled with
  | false => rw [tick_of_off on]
  | true => rw [tick_of_on on]

/-- A tick leaves the control register alone. -/
theorem control_tick (timer : Timer) (cycles : Nat)
    : (timer.tick cycles).1.control = timer.control := by
  cases on : timer.enabled with
  | false => rw [tick_of_off on]
  | true => rw [tick_of_on on]

/-- So the counter stays enabled, or stays off. -/
theorem enabled_tick (timer : Timer) (cycles : Nat)
    : (timer.tick cycles).1.enabled = timer.enabled := by
  unfold enabled
  rw [control_tick]

/-- The period stays selected. -/
theorem period_tick (timer : Timer) (cycles : Nat)
    : (timer.tick cycles).1.period = timer.period := by
  unfold period
  rw [control_tick]

/-- Two stretches, one after the other, are one, whether or not the counter is enabled. -/
theorem tick_add (timer : Timer) (first second : Nat)
    : timer.tick (first + second)
      = (((timer.tick first).1.tick second).1,
        (timer.tick first).2 || ((timer.tick first).1.tick second).2) := by
  have turned : (timer.divider + (first + second)) % dividerTurn
      = ((timer.divider + first) % dividerTurn + second) % dividerTurn := by
    rw [Nat.mod_add_mod, Nat.add_assoc]
  cases on : timer.enabled with
  | false =>
      have off : (timer.tick first).1.enabled = false := (enabled_tick ..).trans on
      rw [tick_of_off off, tick_of_off on, tick_of_off on, turned, Bool.false_or]
  | true =>
      have still : (timer.tick first).1.enabled := (enabled_tick ..).trans on
      obtain ⟨steps, left⟩ := periods_add timer.progress first second timer.period_pos
      rw [tick_of_on still, period_tick]
      simp only [tick_of_on on, turned, steps, left, count_add]

end Handheld.Timer
