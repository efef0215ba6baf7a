import Handheld.Proofs.Bus.Elapse
import Handheld.Proofs.Timer

/-! The timer after any stretches of time, in closed form. What it shows depends on how much time
has passed, and not on how the time was divided: the divider and the progress are remainders, and
the counter goes round between the modulo register and 255 once it has passed 255 for the first
time.
-/

namespace Handheld

namespace Timer

-----------------------------------------------------------------------------------------
-- Steps of the counter
-----------------------------------------------------------------------------------------

/-- A counter below 255 counts on. -/
theorem toNat_succ {value : UInt8} (below : value ≠ 0xFF)
    : (value + 1).toNat = value.toNat + 1 := by
  have small := value.toNat_lt
  have notLast : value.toNat ≠ 255 := fun last => below (UInt8.toNat_inj.mp last)
  have wraps : (value + 1).toNat = (value.toNat + 1) % 256 := UInt8.toNat_add value 1
  omega

/-- As long as it does not pass 255, the counter counts the steps. -/
theorem count_below (reload : UInt8) {steps : Nat} {value : UInt8}
    (below : value.toNat + steps < 256)
    : (count reload steps value false).1.toNat = value.toNat + steps
      ∧ (count reload steps value false).2 = false := by
  induction steps generalizing value with
  | zero => exact ⟨rfl, rfl⟩
  | succ steps ih =>
      have notLast : value ≠ 0xFF := by
        rintro rfl
        have last : (0xFF : UInt8).toNat = 255 := rfl
        omega
      have next := toNat_succ notLast
      have stillBelow : (value + 1).toNat + steps < 256 := by omega
      obtain ⟨counted, silent⟩ := ih stillBelow
      rw [count, if_neg notLast]
      exact ⟨by omega, silent⟩

/-- The step that passes 255 reloads the counter. -/
theorem count_passing (reload value : UInt8)
    : count reload (256 - value.toNat) value false = (reload, true) := by
  have small := value.toNat_lt
  have most : value.toNat + (255 - value.toNat) < 256 := by omega
  obtain ⟨counted, silent⟩ := count_below reload most
  have last : (count reload (255 - value.toNat) value false).1 = 0xFF := by
    apply UInt8.toNat_inj.mp
    rw [counted]
    exact Nat.add_sub_cancel' (by omega)
  have split : 256 - value.toNat = (255 - value.toNat) + 1 := by omega
  rw [split, count_add, last, silent]
  rfl

/-- From the modulo register on the counter goes round, by induction on the rounds. -/
theorem count_rounds (reload : UInt8) (steps : Nat)
    : (count reload steps reload false).1.toNat
      = reload.toNat + steps % (256 - reload.toNat) := by
  have small := reload.toNat_lt
  induction steps using Nat.strongRecOn with
  | ind steps ih =>
      by_cases within : steps < 256 - reload.toNat
      · rw [Nat.mod_eq_of_lt within]
        exact (count_below reload (by omega)).1
      · obtain ⟨rest, rfl⟩ := Nat.exists_eq_add_of_le (Nat.le_of_not_lt within)
        rw [count_add, count_passing, Nat.add_mod_left]
        exact ih rest (by omega)

/-- Once it has passed 255, the counter has gone round for the steps that were left. -/
theorem count_beyond (reload : UInt8) {steps : Nat} {value : UInt8}
    (beyond : 256 ≤ value.toNat + steps)
    : (count reload steps value false).1.toNat
        = reload.toNat + (value.toNat + steps - 256) % (256 - reload.toNat)
      ∧ (count reload steps value false).2 = true := by
  have small := value.toNat_lt
  obtain ⟨rest, rfl⟩ : ∃ rest, steps = (256 - value.toNat) + rest :=
    Nat.exists_eq_add_of_le (by omega)
  have left : value.toNat + (256 - value.toNat + rest) - 256 = rest := by omega
  rw [count_add, count_passing, left]
  exact ⟨count_rounds reload rest, rfl⟩

/-- So a stretch asks for an interrupt exactly when its periods take the counter beyond 255. -/
theorem tick_asks_iff {timer : Timer} (on : timer.enabled) (cycles : Nat)
    : (timer.tick cycles).2
      ↔ 256 ≤ timer.counter.toNat + (timer.progress + cycles) / timer.period := by
  rw [tick_of_on on]
  constructor
  · intro asked
    by_contra below
    obtain ⟨-, silent⟩ := count_below timer.modulo (Nat.lt_of_not_le below)
    exact Bool.false_ne_true (silent.symm.trans asked)
  · intro beyond
    exact (count_beyond timer.modulo beyond).2

-----------------------------------------------------------------------------------------
-- Stretches one after another
-----------------------------------------------------------------------------------------

/-- Some stretches, one after another: the timer after all of them, and for each whether it asks for
an interrupt.
-/
def ticks : Timer → List Nat → Timer × List Bool
  | timer, [] => (timer, [])
  | timer, cycles :: rest =>
      let ticked := timer.tick cycles
      let others := ticked.1.ticks rest
      (others.1, ticked.2 :: others.2)

theorem ticks_cons (timer : Timer) (cycles : Nat) (rest : List Nat)
    : timer.ticks (cycles :: rest)
      = (((timer.tick cycles).1.ticks rest).1,
        (timer.tick cycles).2 :: ((timer.tick cycles).1.ticks rest).2) :=
  rfl

/-- Stretches one after another are one stretch, by induction on all but the first. An interrupt is
asked for in the whole when it is asked for in one of them.
-/
theorem ticks_eq_tick (timer : Timer) (first : Nat) (rest : List Nat)
    : (timer.ticks (first :: rest)).1 = (timer.tick (first :: rest).sum).1
      ∧ (true ∈ (timer.ticks (first :: rest)).2 ↔ (timer.tick (first :: rest).sum).2) := by
  induction rest generalizing timer first with
  | nil =>
      have single : [first].sum = first := List.sum_singleton
      rw [single, ticks_cons]
      refine ⟨rfl, ?_⟩
      rw [List.mem_cons, eq_comm]
      exact or_iff_left List.not_mem_nil
  | cons second rest ih =>
      obtain ⟨same, asked⟩ := ih (timer.tick first).1 second
      rw [List.sum_cons, tick_add, ticks_cons, List.mem_cons, asked]
      refine ⟨same, ?_⟩
      rw [Bool.or_eq_true, eq_comm]

end Timer

/-- So are stretches of the timer on the bus, also in what they request. -/
theorem Bus.foldl_runTimer (bus : Bus) (first : Nat) (rest : List Nat)
    : (first :: rest).foldl Bus.runTimer bus = bus.runTimer (first :: rest).sum := by
  induction rest generalizing bus first with
  | nil => rfl
  | cons second rest ih =>
      have total : (first :: second :: rest).sum = first + (second :: rest).sum := List.sum_cons
      rw [List.foldl_cons, ih, total, runTimer_add]

namespace Timer

/-- The timer after some stretches, at least one, one after another. Together they move the divider
on by their sum, modulo a turn. If the counter is enabled, the periods in the sum and the progress
from before step the counter. While it stays below 256 it has counted them, and no stretch asks for
an interrupt; from then on it goes round from the modulo register up, and one of them has asked for
an interrupt. If it is not enabled it stands still. So the same time in one stretch does the same to
timer and requests.
-/
theorem ticks_in_closed_form (timer : Timer) {amounts : List Nat} (nonempty : amounts ≠ [])
    : let after := (timer.ticks amounts).1
      let asked := true ∈ (timer.ticks amounts).2
      after.divider = (timer.divider + amounts.sum) % 16384
      ∧ after.modulo = timer.modulo
      ∧ after.control = timer.control
      ∧ (timer.enabled
        → let periods := (timer.progress + amounts.sum) / timer.period
          after.progress = (timer.progress + amounts.sum) % timer.period
          ∧ (timer.counter.toNat + periods < 256
            → after.counter.toNat = timer.counter.toNat + periods ∧ ¬asked)
          ∧ (256 ≤ timer.counter.toNat + periods
            → after.counter.toNat
                = timer.modulo.toNat
                  + (timer.counter.toNat + periods - 256) % (256 - timer.modulo.toNat)
              ∧ asked))
      ∧ (timer.enabled = false
        → after.counter = timer.counter ∧ after.progress = timer.progress ∧ ¬asked)
      ∧ after = (timer.tick amounts.sum).1
      ∧ (asked ↔ (timer.tick amounts.sum).2)
      ∧ ∀ bus : Bus, amounts.foldl Bus.runTimer bus = bus.runTimer amounts.sum := by
  obtain ⟨first, rest, rfl⟩ := List.exists_cons_of_ne_nil nonempty
  obtain ⟨same, asked⟩ := timer.ticks_eq_tick first rest
  have onBus (bus : Bus) := bus.foldl_runTimer first rest
  generalize (first :: rest).sum = total at same asked onBus
  dsimp only
  rw [same, asked]
  cases on : timer.enabled with
  | false =>
      rw [tick_of_off on]
      exact ⟨rfl, rfl, rfl, nofun, fun _ => ⟨rfl, rfl, Bool.false_ne_true⟩, rfl, Iff.rfl, onBus⟩
  | true =>
      rw [tick_of_on on]
      refine ⟨rfl, rfl, rfl, fun _ => ⟨rfl, ?_, ?_⟩, nofun, rfl, Iff.rfl, onBus⟩
      · intro below
        obtain ⟨counted, silent⟩ := count_below timer.modulo below
        exact ⟨counted, by simp [silent]⟩
      · intro beyond
        exact count_beyond timer.modulo beyond

/-- A counter two steps before it reloads, with a period of four machine cycles. -/
def reloading : Timer :=
  { divider := 16380, counter := 0xFE, modulo := 0xF0, control := 0x05, progress := 0 }

/-- Four periods in three stretches, one of them empty, take it two steps beyond the reload, while
the divider starts over.
-/
theorem ticks_in_closed_form_reloading
    : [5, 0, 11] ≠ []
      ∧ (reloading.ticks [5, 0, 11]).1.divider = 12
      ∧ (reloading.ticks [5, 0, 11]).1.progress = 0
      ∧ (reloading.ticks [5, 0, 11]).1.counter.toNat = 0xF2
      ∧ true ∈ (reloading.ticks [5, 0, 11]).2 := by
  have nonempty : [5, 0, 11] ≠ [] := List.cons_ne_nil _ _
  obtain ⟨divider, -, -, counts, -⟩ := reloading.ticks_in_closed_form nonempty
  obtain ⟨progress, -, beyond⟩ := counts rfl
  obtain ⟨counter, asked⟩ := beyond (by decide)
  exact ⟨nonempty, divider, progress, counter, asked⟩

end Timer

end Handheld
