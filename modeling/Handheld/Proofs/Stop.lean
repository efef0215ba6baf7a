import Handheld.Proofs.Board.Waiting
import Handheld.Proofs.Reachable

/-! A stopped processor. It stands still while time passes on the bus, until a key is pressed or an
interrupt is served: a stop does not keep interrupts out.
-/

namespace Handheld

namespace Board

-----------------------------------------------------------------------------------------
-- Standing still
-----------------------------------------------------------------------------------------

/-- The boards after steps in which the processor stands still and time passes. A request that is
not served may end a halt, and the first step may leave start-up code.
-/
inductive Parked (before : Board) : Nat → Board → Prop where
  | start : Parked before 0 before
  | later (more : Nat) (halted : Bool)
    : Parked before (more + 1)
        (leaveBoot
          { cpu :=
              { before.cpu with
                cycles := before.cpu.cycles + (more + 1), lastCycles := 1, halted }
            bus := before.bus.elapse (more + 1) })

/-- Start-up code that is left later might as well have been left before time passed. -/
theorem leaveBoot_elapse {cpu later : Cpu} (same : later.pc = cpu.pc) (bus : Bus) (cycles : Nat)
    : leaveBoot ⟨later, (leaveBoot ⟨cpu, bus⟩).bus.elapse cycles⟩
      = leaveBoot ⟨later, bus.elapse cycles⟩ := by
  have mapped (bus : Bus) : (bus.elapse cycles).boot = bus.boot := rfl
  unfold leaveBoot
  dsimp only
  rw [mapped bus, same]
  cases entering : bus.boot.mapped && cpu.pc == cartridgeEntry with
  | true =>
      rw [if_pos rfl, if_pos rfl, mapped]
      rfl
  | false =>
      rw [if_neg Bool.false_ne_true, if_neg Bool.false_ne_true, mapped, entering,
        if_neg Bool.false_ne_true]

/-- One more step of standing still. -/
theorem Parked.next {before middle : Board} {steps : Nat} (parked : before.Parked steps middle)
    (halted : Bool)
    : before.Parked (steps + 1)
        (leaveBoot ⟨{ countCycles 1 middle.cpu with halted }, middle.bus.elapse 1⟩) := by
  cases parked with
  | start => exact .later 0 halted
  | later more was =>
      rw [(clock_leaveBoot _).1, leaveBoot_elapse, ← Bus.elapse_add]
      · exact .later (more + 1) halted
      · rfl

/-- Whoever stands still keeps the registers, the storage and the cartridge, and no key is pressed
meanwhile.
-/
theorem Parked.kept {before after : Board} {steps : Nat} (parked : before.Parked steps after)
    : (∃ cycles lastCycles halted,
        after.cpu = { before.cpu with cycles, lastCycles, halted })
      ∧ after.bus.storage = before.bus.storage
      ∧ after.bus.cartridge = before.bus.cartridge
      ∧ keyPressed after = keyPressed before := by
  cases parked with
  | start => exact ⟨⟨_, _, _, rfl⟩, rfl, rfl, rfl⟩
  | later more halted =>
      have storage := before.bus.storage_elapse (more + 1)
      have unpressed := before.bus.isIn_joypad_elapse (more + 1)
      refine ⟨⟨_, _, _, (clock_leaveBoot _).1⟩, ?_⟩
      unfold leaveBoot
      split
      · exact ⟨storage, rfl, unpressed⟩
      · exact ⟨storage, rfl, unpressed⟩

/-- A board that stands still waits on, for as long as it is stopped and no key is pressed. -/
theorem Parked.waits {before after : Board} {steps : Nat} (parked : before.Parked steps after)
    (stopped : before.cpu.stopped) (unpressed : keyPressed before = false)
    : after.Waits := by
  obtain ⟨⟨_, _, _, cpu⟩, -, -, keys⟩ := parked.kept
  refine .stopped ?_ (keys.trans unpressed)
  rw [cpu]
  exact stopped

/-- Steps end with the last one. -/
theorem steps_succ_of_last {board middle after : Board} {count last : Nat} {clocks : List Nat}
    (ran : steps count board = .ok clocks middle) (stepped : step middle = .ok last after)
    : steps (count + 1) board = .ok (clocks ++ [last]) after :=
  steps_append ran (steps_succ_of_ok stepped rfl)

/-- Without an interrupt to serve, a stopped board stands still for one more step. -/
theorem Parked.goesOn {board middle : Board} {count : Nat} (parked : board.Parked count middle)
    (stopped : board.cpu.stopped) (unpressed : keyPressed board = false)
    (ran : steps count board = .ok (List.replicate count 4) middle)
    (unserved : middle.cpu.interruptsOn → nextInterrupt? middle.ticked = none)
    : ∃ after,
        steps (count + 1) board = .ok (List.replicate (count + 1) 4) after
        ∧ board.Parked (count + 1) after := by
  obtain ⟨halted, stepped, -⟩ := (parked.waits stopped unpressed).step unserved
  rw [List.replicate_succ']
  exact ⟨_, steps_succ_of_last ran stepped, parked.next halted⟩

/-- A stopped processor without a key pressed stands still: every step takes four clocks, keeps the
registers, the storage and the cartridge, and lets time pass. It does so for any number of steps,
unless interrupts are on and a step finds one that is requested and enabled. That step calls the
handler, if it succeeds, and the processor stays stopped there.
-/
theorem stop_parks_or_serves {board : Board} (stopped : board.cpu.stopped)
    (unpressed : keyPressed board = false) (count : Nat)
    : (∃ after,
        steps count board = .ok (List.replicate count 4) after
        ∧ board.Parked count after
        ∧ after.bus.storage = board.bus.storage
        ∧ after.bus.cartridge = board.bus.cartridge
        ∧ keyPressed after = false)
      ∨ board.cpu.interruptsOn
        ∧ ∃ earlier middle source,
            earlier < count
            ∧ steps earlier board = .ok (List.replicate earlier 4) middle
            ∧ board.Parked earlier middle
            ∧ nextInterrupt? middle.ticked = some source
            ∧ ∀ clocks after,
              step middle = .ok clocks after
              → clocks = 24
                ∧ after.cpu = calling source { countCycles 1 middle.cpu with halted := false } := by
  induction count with
  | zero => exact .inl ⟨board, rfl, .start, rfl, rfl, unpressed⟩
  | succ count ih =>
      rcases ih with ⟨middle, ran, parked, -⟩ | ⟨on, earlier, middle, source, before, rest⟩
      · by_cases unserved : middle.cpu.interruptsOn → nextInterrupt? middle.ticked = none
        · obtain ⟨after, further, still⟩ := parked.goesOn stopped unpressed ran unserved
          obtain ⟨-, storage, cartridge, keys⟩ := still.kept
          exact .inl ⟨after, further, still, storage, cartridge, keys.trans unpressed⟩
        · obtain ⟨on, found⟩ := Classical.not_imp.mp unserved
          obtain ⟨source, next⟩ := Option.ne_none_iff_exists'.mp found
          have same : board.cpu.interruptsOn := by
            obtain ⟨⟨_, _, _, cpu⟩, -⟩ := parked.kept
            rwa [cpu] at on
          exact .inr ⟨same, count, middle, source, Nat.lt_succ_self count, ran, parked, next,
            fun _ _ => (parked.waits stopped unpressed).step_serves on next⟩
      · exact .inr ⟨on, earlier, middle, source, Nat.lt_succ_of_lt before, rest⟩

/-- A stopped processor with interrupts off, and all of them enabled. -/
def masked : Board :=
  { cpu := { Cpu.afterBoot with stopped := true }
    bus := { (Bus.initial .strict).afterBoot with enables := 0x1F } }

/-- It stands still whatever is requested, here for more than a frame. -/
theorem stop_parks_or_serves_masked
    : ∃ after,
        steps 20000 masked = .ok (List.replicate 20000 4) after
        ∧ masked.Parked 20000 after
        ∧ after.bus.storage = masked.bus.storage
        ∧ after.bus.cartridge = masked.bus.cartridge
        ∧ keyPressed after = false :=
  (stop_parks_or_serves rfl rfl 20000).resolve_right fun ⟨on, _⟩ => by cases on

end Board

namespace Machine

/-- A machine about to run what stands at the start of work RAM. -/
def inWorkMemory : Machine :=
  { new with board := { new.board with cpu := { Cpu.afterBoot with pc := 0xC000 } } }

/-- The display is off, the timer is about to overflow and may interrupt. Interrupts have been
switched on and the processor has been stopped.
-/
def stopping : Machine :=
  inWorkMemory.after
    [.write 0xFF40 0x00, .write 0xC000 0xFB, .write 0xC001 0x10, .write 0xFFFF 0x04,
      .write 0xFF05 0xFF, .write 0xFF07 0x05, .step, .step]

/-- After one step of standing still the timer takes a stopped processor to its handler, although no
key has been pressed.
-/
theorem stop_ends_without_key
    : stopping.Reachable
      ∧ stopping.board.cpu.stopped
      ∧ Board.keyPressed stopping.board = false
      ∧ stopping.board.cpu.pc = 0xC003
      ∧ stopping.board.cpu.interruptsOn
      ∧ ∃ after,
          Board.steps 2 stopping.board = .ok [4, 24] after
          ∧ Board.keyPressed after = false
          ∧ after.cpu.pc = 0x0050
          ∧ after.cpu.interruptsOn = false := by
  have reachable : inWorkMemory.Reachable := .elsewhere (.ofSetup ⟨.strict, none⟩) rfl rfl
  have stands
      : stopping.board.cpu.stopped
        ∧ Board.keyPressed stopping.board = false
        ∧ stopping.board.cpu.pc = 0xC003
        ∧ stopping.board.cpu.interruptsOn := by
    decide +kernel
  have steps : Act.answer (Board.steps 2) stopping.board = .ok [4, 24] := by decide +kernel
  obtain ⟨stopped, unpressed, pc, on⟩ := stands
  refine ⟨reachable.calls _, stopped, unpressed, pc, on, _, Act.ok_of_answer steps, ?_⟩
  decide +kernel

end Machine

end Handheld
