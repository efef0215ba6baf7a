import Handheld.Proofs.Board.Phases
import Handheld.Proofs.Bus.Elapse

/-! A processor that waits, halted or stopped. It fetches nothing, so that a step lets one machine
cycle pass on the bus, unless an interrupt is served meanwhile.
-/

namespace Handheld.Board

-----------------------------------------------------------------------------------------
-- Executions and admissions
-----------------------------------------------------------------------------------------

/-- The processor fetches nothing: it is stopped without a key pressed, or it is halted. -/
inductive Waits (board : Board) : Prop where
  | stopped (stopped : board.cpu.stopped) (unpressed : keyPressed board = false)
  | halted (notStopped : board.cpu.stopped = false) (halted : board.cpu.halted)

/-- A board that waits spends one machine cycle on an execution, by the reason why it waits. -/
theorem Waits.execute {board : Board} (waits : board.Waits)
    : execute board = .ok 1 ⟨countCycles 1 board.cpu, board.bus.runTimer 1⟩ := by
  cases waits with
  | stopped stopped unpressed =>
      change (if board.cpu.stopped then inspect keyPressed >>= _ else _) board = _
      rw [if_pos stopped]
      change (if keyPressed board then _ else finish 1) board = _
      rw [unpressed, if_neg Bool.false_ne_true]
      rfl
  | halted notStopped halted =>
      change (if board.cpu.stopped then _ else continueUnlessHalted) board = _
      rw [notStopped, if_neg Bool.false_ne_true]
      change (if board.cpu.halted then finish 1 else _) board = _
      rw [if_pos halted]
      rfl

/-- The board as the timer leaves it in a step without a fetch, before interrupts are looked for. -/
def ticked (board : Board) : Board :=
  ⟨countCycles 1 board.cpu, board.bus.runTimer 1⟩

/-- Without an interrupt to serve, a board that waits lets one machine cycle pass. A request that
is not served may end a halt.
-/
theorem Waits.step {board : Board} (waits : board.Waits)
    (unserved : board.cpu.interruptsOn → nextInterrupt? board.ticked = none)
    : ∃ halted,
        Board.step board
          = .ok 4 (leaveBoot ⟨{ countCycles 1 board.cpu with halted }, board.bus.elapse 1⟩)
        ∧ (nextInterrupt? board.ticked = none → halted = board.cpu.halted) := by
  rcases admitInterrupt_cases (.ofBoard board.ticked) with
    ⟨halted, idle, -, same⟩ | ⟨source, -, on, next⟩
  · obtain ⟨_, admitted, rfl, -⟩ :=
      Probed.plain_of_ok Probed.besideBoard_keepsStep.admitInterrupt idle
    refine ⟨halted, ?_, same⟩
    exact (Act.bind_of_ok waits.execute _).trans (Act.bind_of_ok admitted _)
  · have absent := unserved on
    change nextInterrupt? board.ticked = some source at next
    rw [next] at absent
    cases absent

/-- A step that finds an interrupt to serve calls its handler, and so it does while the processor
is stopped.
-/
theorem Waits.step_serves {board after : Board} (waits : board.Waits) {source : Interrupt}
    {clocks : Nat} (on : board.cpu.interruptsOn) (next : nextInterrupt? board.ticked = some source)
    (stepped : Board.step board = .ok clocks after)
    : clocks = 24
      ∧ after.cpu = calling source { countCycles 1 board.cpu with halted := false } := by
  obtain ⟨spent, serving, middle, served, executed, admitted, rfl, rfl⟩ := step_ok stepped
  rw [waits.execute] at executed
  cases executed
  obtain ⟨_, observed, rfl, -⟩ :=
    Probed.ok_of_besideBoard Probed.besideBoard_keepsStep.admitInterrupt admitted
  rcases admitInterrupt_cases (.ofBoard board.ticked) with
    ⟨_, -, unserved, -⟩ | ⟨first, serves, -, found⟩
  · have absent := unserved on
    change nextInterrupt? board.ticked = none at absent
    rw [next] at absent
    cases absent
  · change nextInterrupt? board.ticked = some first at found
    rw [next] at found
    cases found
    change admitInterrupt (Probed.ofBoard board.ticked) = _ at observed
    rw [serves] at observed
    obtain ⟨rfl, called, -⟩ := calling_of_serve observed
    exact ⟨rfl, (clock_leaveBoot _).1.trans called⟩

-----------------------------------------------------------------------------------------
-- Halts
-----------------------------------------------------------------------------------------

/-- The board after its processor waited for some machine cycles. -/
def idled (board : Board) (cycles : Nat) : Board :=
  { cpu := { board.cpu with cycles := board.cpu.cycles + cycles, lastCycles := 1 }
    bus := board.bus.elapse cycles }

/-- One stretch after another is waited for as one. -/
theorem idled_idled (board : Board) (first second : Nat)
    : (board.idled first).idled second = board.idled (first + second) := by
  simp only [idled, Bus.elapse_add, Nat.add_assoc]

/-- More time passes on its bus as on that of the board before. -/
theorem elapse_idled (board : Board) (first second : Nat)
    : (board.idled first).bus.elapse second = board.bus.elapse (first + second) :=
  (board.bus.elapse_add first second).symm

/-- Away from the cartridge's entry there is no start-up code to leave. -/
theorem leaveBoot_of_away {board : Board}
    (away : board.bus.boot.mapped = false ∨ board.cpu.pc ≠ cartridgeEntry)
    : board.leaveBoot = board := by
  unfold leaveBoot
  rcases away with unmapped | elsewhere
  · rw [unmapped, Bool.false_and, if_neg Bool.false_ne_true]
  · rw [beq_eq_false_iff_ne.mpr elsewhere, Bool.and_false, if_neg Bool.false_ne_true]

/-- A halted board with nothing pending when it looks only lets time pass in a step. -/
theorem step_of_halted {board : Board} (halted : board.cpu.halted)
    (notStopped : board.cpu.stopped = false)
    (away : board.bus.boot.mapped = false ∨ board.cpu.pc ≠ cartridgeEntry)
    (quiet : Interrupt.pending (board.bus.runTimer 1).requests board.bus.enables = 0)
    : step board = .ok 4 (board.idled 1) := by
  have waits : board.Waits := .halted notStopped halted
  have absent : nextInterrupt? board.ticked = none := Interrupt.first?_pending_eq_none_iff.mpr quiet
  obtain ⟨_, stepped, same⟩ := waits.step fun _ => absent
  obtain rfl := same absent
  rw [stepped]
  exact congrArg (EStateM.Result.ok 4) (leaveBoot_of_away away)

/-- A request that is not served ends a halt, and time passes in the step all the same. -/
theorem step_of_woken {board : Board} {source : Interrupt} (halted : board.cpu.halted)
    (notStopped : board.cpu.stopped = false)
    (away : board.bus.boot.mapped = false ∨ board.cpu.pc ≠ cartridgeEntry)
    (off : board.cpu.interruptsOn = false) (next : nextInterrupt? board.ticked = some source)
    : step board
      = .ok 4
        { cpu := { (board.idled 1).cpu with halted := false }
          bus := board.bus.elapse 1 } := by
  have waits : board.Waits := .halted notStopped halted
  have still : board.ticked.cpu.interruptsOn = false := off
  have admitted := admitInterrupt_of_off still next
  refine (Act.bind_of_ok waits.execute _).trans ((Act.bind_of_ok admitted _).trans ?_)
  exact congrArg (EStateM.Result.ok 4) (leaveBoot_of_away away)

/-- While a board is halted its steps only let time pass, all of it at once if one likes: what the
timer and the video unit request on the way would be requested in the end, so that nothing that
is not pending then can have ended the halt before. Induction on the steps after the first one.
-/
theorem steps_of_halted {board : Board} (halted : board.cpu.halted)
    (notStopped : board.cpu.stopped = false)
    (away : board.bus.boot.mapped = false ∨ board.cpu.pc ≠ cartridgeEntry) (more : Nat)
    (quiet : Interrupt.pending (board.bus.elapse (more + 1)).requests board.bus.enables = 0)
    : steps (more + 1) board = .ok (List.replicate (more + 1) 4) (board.idled (more + 1)) := by
  have first := step_of_halted halted notStopped away (Bus.pending_runTimer more quiet)
  induction more generalizing board with
  | zero => exact steps_succ_of_ok first rfl
  | succ more ih =>
      rw [Nat.add_comm, Bus.elapse_add] at quiet
      have next : step (board.idled 1) = .ok 4 ((board.idled 1).idled 1) :=
        step_of_halted halted notStopped away (Bus.pending_runTimer more quiet)
      have rest : steps (more + 1) (board.idled 1)
          = .ok (List.replicate (more + 1) 4) ((board.idled 1).idled (more + 1)) :=
        ih halted notStopped away quiet next
      rw [idled_idled, Nat.add_comm 1] at rest
      exact steps_succ_of_ok first rest

/-- A halt can be fast-forwarded. A processor that is halted and not stopped, with no start-up code
to leave, is stepped some machine cycles. If running the timer for all of them and then the video
unit requests nothing enabled, then each step takes four clocks, and the steps end in exactly what
the two runs make of the bus, while the processor has counted the cycles.
-/
theorem halt_fast_forwards (board : Board) (cycles : Nat) (halted : board.cpu.halted)
    (notStopped : board.cpu.stopped = false)
    (away : board.bus.boot.mapped = false ∨ board.cpu.pc ≠ cartridgeEntry)
    (positive : 1 ≤ cycles)
    (quiet : (board.bus.elapse cycles).requests &&& (board.bus.enables &&& 0x1F) = 0)
    : steps cycles board
        = .ok (List.replicate cycles 4)
          { cpu := { board.cpu with cycles := board.cpu.cycles + cycles, lastCycles := 1 }
            bus := board.bus.elapse cycles }
      ∧ (∃ timer video requests,
          board.bus.elapse cycles = { board.bus with timer, video, requests })
      ∧ (board.bus.elapse cycles).storage = board.bus.storage := by
  obtain ⟨more, rfl⟩ := Nat.exists_eq_add_of_le' positive
  refine ⟨steps_of_halted halted notStopped away more ?_, ⟨_, _, _, rfl⟩,
    board.bus.storage_elapse _⟩
  rw [Interrupt.pending, UInt8.and_assoc]
  exact quiet

/-- A halted processor that only a key can wake, while the display is on. -/
def dozing : Board :=
  { cpu := { Cpu.afterBoot with halted := true }
    bus := { (Bus.initial .strict).afterBoot with enables := 0x10 } }

/-- It sleeps through more than a frame, although blanking is requested on the way. -/
theorem halt_fast_forwards_dozing
    : steps 20000 dozing
      = .ok (List.replicate 20000 4)
        { cpu := { dozing.cpu with cycles := 20000, lastCycles := 1 }
          bus := dozing.bus.elapse 20000 } := by
  have unpressed : Interrupt.joypad.isIn (dozing.bus.elapse 20000).requests = false :=
    dozing.bus.isIn_joypad_elapse 20000
  have quiet : (dozing.bus.elapse 20000).requests &&& (dozing.bus.enables &&& 0x1F) = 0 :=
    bne_eq_false_iff_eq.mp unpressed
  exact (halt_fast_forwards dozing 20000 rfl rfl (.inl rfl) (by decide) quiet).1

-----------------------------------------------------------------------------------------
-- Halts that the timer ends
-----------------------------------------------------------------------------------------

/-- The processor is in a halt that only the timer can end, and then no handler is called. -/
structure AwaitsTimer (board : Board) : Prop where
  halted : board.cpu.halted
  notStopped : board.cpu.stopped = false
  off : board.cpu.interruptsOn = false
  leftBoot : board.bus.boot.mapped = false
  onlyTimer : board.bus.enables = Interrupt.timer.mask

namespace AwaitsTimer

variable {board : Board}

/-- It is in that halt still after some time. -/
theorem idled (awaits : board.AwaitsTimer) (cycles : Nat)
    : (board.idled cycles).AwaitsTimer :=
  ⟨awaits.halted, awaits.notStopped, awaits.off, awaits.leftBoot, awaits.onlyTimer⟩

/-- Its steps only let time pass until the timer asks for its interrupt. -/
theorem steps (awaits : board.AwaitsTimer) (more : Nat)
    (silent : Interrupt.timer.isIn (board.bus.elapse (more + 1)).requests = false)
    : Board.steps (more + 1) board
      = .ok (List.replicate (more + 1) 4) (board.idled (more + 1)) := by
  refine steps_of_halted awaits.halted awaits.notStopped (.inl awaits.leftBoot) more ?_
  rwa [awaits.onlyTimer, Interrupt.pending_mask_eq_zero_iff]

/-- With the step in which the timer does so, the halt has ended. -/
theorem step (awaits : board.AwaitsTimer)
    (asked : Interrupt.timer.isIn (board.bus.elapse 1).requests)
    : Board.step board
      = .ok 4
        { cpu := { (board.idled 1).cpu with halted := false }
          bus := board.bus.elapse 1 } := by
  rw [Bus.isIn_timer_elapse, ← Bus.isIn_timer_runTimer] at asked
  have pending
      : Interrupt.pending (board.bus.runTimer 1).requests board.bus.enables ≠ 0 := by
    rw [awaits.onlyTimer, ne_eq, Interrupt.pending_mask_eq_zero_iff, Bool.not_eq_false]
    exact asked
  have raised : nextInterrupt? board.ticked ≠ none :=
    fun absent => pending (Interrupt.first?_pending_eq_none_iff.mp absent)
  obtain ⟨source, next⟩ := Option.ne_none_iff_exists'.mp raised
  exact step_of_woken awaits.halted awaits.notStopped (.inl awaits.leftBoot) awaits.off next

end AwaitsTimer

end Handheld.Board
