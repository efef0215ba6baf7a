import Handheld.Board.Step
import Handheld.Proofs.Bus.Storage
import Handheld.Proofs.Timer
import Handheld.Proofs.Video.Elapse

/-! The bus over a stretch of time in which nobody reaches for it. The timer and the video unit
share nothing but the interrupt requests, to which both only add. So time may pass in one stretch
or in several, and for one of them before the other.
-/

namespace Handheld.Bus

/-- The bus after some machine cycles: the timer runs for them, then the video unit does. -/
def elapse (bus : Bus) (cycles : Nat) : Bus :=
  ((bus.runTimer cycles).runVideo (cycles * Board.clocksPerCycle)).1

variable (bus : Bus)

-----------------------------------------------------------------------------------------
-- Stretches
-----------------------------------------------------------------------------------------

/-- The timer runs for two stretches as for one. -/
theorem runTimer_add (first second : Nat)
    : bus.runTimer (first + second) = (bus.runTimer first).runTimer second := by
  simp only [runTimer, Timer.tick_add, Interrupt.raiseIf_either]

/-- So does the video unit. -/
theorem runVideo_add (first second : Nat)
    : (bus.runVideo (first + second)).1 = ((bus.runVideo first).1.runVideo second).1 := by
  simp only [runVideo, Video.advance_add, Video.Sweep.ahead, UInt8.or_zero, Nat.add_zero]

/-- Neither of the two waits for the other. -/
theorem runTimer_runVideo (cycles clocks : Nat)
    : (bus.runVideo clocks).1.runTimer cycles = ((bus.runTimer cycles).runVideo clocks).1 := by
  have beside : bus.video.advance clocks (bus.runTimer cycles).requests
      = (bus.video.advance clocks bus.requests).ahead 0
        (Interrupt.timer.raiseIf (bus.timer.tick cycles).2 0) false := by
    rw [← Video.advance_or, ← Interrupt.raiseIf_eq_or]
    rfl
  have raised := Interrupt.timer.raiseIf_eq_or (bus.timer.tick cycles).2
    (bus.video.advance clocks bus.requests).requests
  change { bus with
      timer := (bus.timer.tick cycles).1
      video := (bus.video.advance clocks bus.requests).video
      requests := Interrupt.timer.raiseIf (bus.timer.tick cycles).2
        (bus.video.advance clocks bus.requests).requests }
    = { bus with
        timer := (bus.timer.tick cycles).1
        video := (bus.video.advance clocks (bus.runTimer cycles).requests).video
        requests := (bus.video.advance clocks (bus.runTimer cycles).requests).requests }
  rw [beside, raised]
  rfl

/-- Two stretches, one after the other, are one. -/
theorem elapse_add (first second : Nat)
    : bus.elapse (first + second) = (bus.elapse first).elapse second := by
  unfold elapse
  rw [runTimer_runVideo, ← runTimer_add, ← runVideo_add, Nat.add_mul]

-----------------------------------------------------------------------------------------
-- What time leaves alone
-----------------------------------------------------------------------------------------

/-- Time passes in the devices and leaves what is stored alone. -/
theorem storage_elapse (cycles : Nat)
    : (bus.elapse cycles).storage = bus.storage := by
  obtain ⟨-, vram, oam⟩ :=
    bus.video.kept_advance (cycles * Board.clocksPerCycle) (bus.runTimer cycles).requests
  have ran : (bus.elapse cycles).video
      = (bus.video.advance (cycles * Board.clocksPerCycle) (bus.runTimer cycles).requests).video :=
    rfl
  simp only [storage, ran, vram, oam]
  rfl

/-- The timer only adds to what is requested. -/
theorem requests_runTimer (cycles : Nat)
    : ∃ more, (bus.runTimer cycles).requests = bus.requests ||| more :=
  ⟨_, Interrupt.timer.raiseIf_eq_or _ _⟩

/-- So does the video unit. -/
theorem requests_runVideo (clocks : Nat)
    : ∃ more, (bus.runVideo clocks).1.requests = bus.requests ||| more :=
  ⟨_, bus.video.requests_advance clocks bus.requests⟩

/-- What is not pending after some cycles was not pending when the timer had run for the first. -/
theorem pending_runTimer {bus : Bus} {enables : UInt8} (later : Nat)
    (none : Interrupt.pending (bus.elapse (later + 1)).requests enables = 0)
    : Interrupt.pending (bus.runTimer 1).requests enables = 0 := by
  obtain ⟨shown, video⟩ :=
    (bus.runTimer (later + 1)).requests_runVideo ((later + 1) * Board.clocksPerCycle)
  obtain ⟨ticked, timer⟩ := (bus.runTimer 1).requests_runTimer later
  rw [← bus.runTimer_add, Nat.add_comm] at timer
  rw [elapse, video, timer] at none
  exact Interrupt.pending_of_or (Interrupt.pending_of_or none)

/-- The timer requests its interrupt when its counter reloads. -/
theorem isIn_timer_runTimer (cycles : Nat)
    : Interrupt.timer.isIn (bus.runTimer cycles).requests
      = (Interrupt.timer.isIn bus.requests || (bus.timer.tick cycles).2) := by
  have raised := Interrupt.timer.raiseIf_eq_or (bus.timer.tick cycles).2 bus.requests
  change Interrupt.timer.isIn (Interrupt.timer.raiseIf (bus.timer.tick cycles).2 bus.requests) = _
  rw [raised, Interrupt.isIn_or]
  cases (bus.timer.tick cycles).2 <;> rfl

/-- Nothing else requests it while time passes. -/
theorem isIn_timer_elapse (cycles : Nat)
    : Interrupt.timer.isIn (bus.elapse cycles).requests
      = (Interrupt.timer.isIn bus.requests || (bus.timer.tick cycles).2) := by
  have notVblank : Interrupt.timer ≠ .vblank := by decide
  have notStatus : Interrupt.timer ≠ .lcdStatus := by decide
  have video := Video.isIn_advance_of_ne notVblank notStatus bus.video
    (cycles * Board.clocksPerCycle) (bus.runTimer cycles).requests
  exact video.trans (bus.isIn_timer_runTimer cycles)

/-- Time presses no key. -/
theorem isIn_joypad_elapse (cycles : Nat)
    : Interrupt.joypad.isIn (bus.elapse cycles).requests
      = Interrupt.joypad.isIn bus.requests := by
  have notVblank : Interrupt.joypad ≠ .vblank := by decide
  have notStatus : Interrupt.joypad ≠ .lcdStatus := by decide
  have notTimer : Interrupt.joypad ≠ .timer := by decide
  have video := Video.isIn_advance_of_ne notVblank notStatus bus.video
    (cycles * Board.clocksPerCycle) (bus.runTimer cycles).requests
  have timer :=
    Interrupt.isIn_raiseIf_of_ne notTimer (bus.timer.tick cycles).2 bus.requests
  exact video.trans timer

end Handheld.Bus
