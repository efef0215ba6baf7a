import Handheld.Proofs.Board.Announcing
import Handheld.Proofs.Board.Waiting
import Handheld.Proofs.FrameBudget
import Handheld.Proofs.Timer.ClosedForm

/-! Runs of a frame source. They publish what the machine by itself has completed after each frame,
so that several short runs publish the same as a long one, up to a frame that fails. Beside that
they acknowledge every picture, which the machine itself never does.
-/

namespace Handheld

-----------------------------------------------------------------------------------------
-- The machine by itself
-----------------------------------------------------------------------------------------

namespace Machine

/-- What the machine has completed after each of some frames, up to a fault. -/
def capturedFrames : (frames : Nat) → Machine → List Frame
  | 0, _ => []
  | frames + 1, machine =>
      match advanceFrame machine with
      | .ok _ after => after.completedFrame :: capturedFrames frames after
      | .error _ _ => []

theorem capturedFrames_succ {machine next : Machine} (first : advanceFrame machine = .ok () next)
    (frames : Nat)
    : machine.capturedFrames (frames + 1) = next.completedFrame :: next.capturedFrames frames := by
  rw [capturedFrames, first]

/-- Frames are run part after part, by induction on those of the first part. -/
theorem advanceFrames_add (first second : Nat)
    : advanceFrames (first + second) = (do advanceFrames first; advanceFrames second) := by
  induction first with
  | zero => rw [Nat.zero_add, advanceFrames, pure_bind]
  | succ first ih => rw [Nat.add_right_comm, advanceFrames, advanceFrames, ih, bind_assoc]

/-- So are they captured. -/
theorem capturedFrames_add {machine middle : Machine} {first : Nat}
    (ran : advanceFrames first machine = .ok () middle) (second : Nat)
    : machine.capturedFrames (first + second)
      = machine.capturedFrames first ++ middle.capturedFrames second := by
  induction first generalizing machine with
  | zero =>
      cases ran
      rw [Nat.zero_add]
      rfl
  | succ first ih =>
      obtain ⟨_, next, advanced, rest⟩ := Act.ok_of_bind ran
      rw [Nat.add_right_comm, capturedFrames_succ advanced, capturedFrames_succ advanced, ih rest]
      rfl

/-- One frame is captured after each frame that is run, and the last one after all of them. By
induction on the frames.
-/
theorem capturedFrames_of_ok {machine final : Machine} {frames : Nat}
    (ran : advanceFrames frames machine = .ok () final)
    : (machine.capturedFrames frames).length = frames
      ∧ (machine.capturedFrames frames).getLast?
        = if frames = 0 then none else some final.completedFrame := by
  induction frames generalizing machine with
  | zero => exact ⟨rfl, rfl⟩
  | succ frames ih =>
      obtain ⟨_, next, advanced, rest⟩ := Act.ok_of_bind ran
      obtain ⟨length, last⟩ := ih rest
      rw [capturedFrames_succ advanced, List.length_cons, length, List.getLast?_cons, last,
        if_neg (Nat.succ_ne_zero frames)]
      cases frames with
      | zero =>
          cases rest
          exact ⟨rfl, rfl⟩
      | succ frames => exact ⟨rfl, rfl⟩

/-- A frame that succeeds does so alike from a machine that is the same once acknowledged. -/
theorem advanceFrame_ok_of_same {machine other next : Machine}
    (same : machine.acknowledgeFrame = other.acknowledgeFrame)
    (ran : advanceFrame other = .ok () next)
    : ∃ own,
        advanceFrame machine = .ok () own
        ∧ own.acknowledgeFrame = next.acknowledgeFrame := by
  have outcome := besideAcknowledged_advanceFrame machine other same
  rw [ran] at outcome
  cases advanced : advanceFrame machine with
  | ok _ own =>
      rw [advanced] at outcome
      cases outcome with
      | ok _ related => exact ⟨own, rfl, related⟩
  | error fault own =>
      rw [advanced] at outcome
      cases outcome with
      | excused excused => exact excused.elim

/-- So does one that fails. -/
theorem advanceFrame_error_of_same {machine other broken : Machine} {fault : Fault}
    (same : machine.acknowledgeFrame = other.acknowledgeFrame)
    (failed : advanceFrame other = .error fault broken)
    : ∃ own,
        advanceFrame machine = .error fault own
        ∧ own.acknowledgeFrame = broken.acknowledgeFrame := by
  have outcome := besideAcknowledged_advanceFrame machine other same
  rw [failed] at outcome
  cases advanced : advanceFrame machine with
  | ok _ own =>
      rw [advanced] at outcome
      cases outcome
  | error fault own =>
      rw [advanced] at outcome
      cases outcome with
      | error related => exact ⟨own, rfl, related⟩
      | excused excused => exact excused.elim

end Machine

/-- Of items published one after another the last one waits, or without any what waited before. By
induction on the items.
-/
theorem Mailbox.waiting_foldl_publish {Item : Type} (mailbox : Mailbox Item) (items : List Item)
    : (items.foldl publish mailbox).waiting = items.getLast?.or mailbox.waiting := by
  induction items generalizing mailbox with
  | nil => rfl
  | cons item rest ih =>
      rw [List.foldl_cons, ih, waiting_publish, List.getLast?_cons]
      cases rest.getLast? <;> rfl

namespace FrameSource

-----------------------------------------------------------------------------------------
-- One run
-----------------------------------------------------------------------------------------

/-- A run goes on from where its first frames ended, by induction on these. -/
theorem runFrames_add {source after : FrameSource} {first published total : Nat}
    (ran : runFrames first published source = .ok total after) (rest : Nat)
    : runFrames (first + rest) published source = runFrames rest total after
      ∧ source.publishedFrames (first + rest)
        = source.publishedFrames first ++ after.publishedFrames rest := by
  cases begun : source.shutdown with
  | true =>
      rw [runFrames_of_shutdown begun] at ran
      cases ran
      have silent (limit : Nat) : source.publishedFrames limit = [] := by
        cases limit with
        | zero => rfl
        | succ limit => rw [publishedFrames, if_pos begun]
      rw [runFrames_of_shutdown begun, runFrames_of_shutdown begun, silent, silent, silent]
      exact ⟨rfl, rfl⟩
  | false =>
      induction first generalizing source published with
      | zero =>
          cases ran
          rw [Nat.zero_add]
          exact ⟨rfl, rfl⟩
      | succ first ih =>
          rw [runFrames_succ begun] at ran
          obtain ⟨_, next, advanced, further⟩ := Act.ok_of_bind ran
          obtain ⟨machine, -, -, -, shutdown⟩ := publishFrame_ok advanced
          obtain ⟨runs, frames⟩ := ih further (shutdown.trans begun)
          rw [Nat.add_right_comm, runFrames_succ begun, publishedFrames_succ begun advanced,
            publishedFrames_succ begun advanced, frames, List.append_assoc]
          exact ⟨(Act.bind_of_ok advanced _).trans runs, rfl⟩

/-- A frame of the machine that fails is a frame that is not published. -/
theorem publishFrame_of_error {source : FrameSource} {machine : Machine} {fault : Fault}
    (failed : Machine.advanceFrame source.machine = .error fault machine)
    : publishFrame source = .error fault { source with machine } := by
  unfold publishFrame
  dsimp only
  rw [failed]

/-- The source with what a machine has completed in some frames published. Its own machine is that
one with the pictures acknowledged, if there were any frames.
-/
def delivered (source : FrameSource) (frames : Nat) (start final : Machine) : FrameSource :=
  { source with
    machine := if frames = 0 then source.machine else final.acknowledgeFrame
    mailbox := (start.capturedFrames frames).foldl Mailbox.publish source.mailbox }

variable {source : FrameSource} {start final : Machine}

/-- Then the last frame waits, or without any frames what waited before. -/
theorem waiting_delivered {frames : Nat} (ran : Machine.advanceFrames frames start = .ok () final)
    : (source.delivered frames start final).mailbox.waiting
      = if frames = 0 then source.mailbox.waiting else some final.completedFrame := by
  obtain ⟨-, last⟩ := Machine.capturedFrames_of_ok ran
  simp only [delivered, Mailbox.waiting_foldl_publish, last]
  split <;> rfl

/-- Acknowledged, the two machines are the same after it if they were before. -/
theorem acknowledgeFrame_delivered {frames : Nat}
    (same : source.machine.acknowledgeFrame = start.acknowledgeFrame)
    (ran : Machine.advanceFrames frames start = .ok () final)
    : (source.delivered frames start final).machine.acknowledgeFrame = final.acknowledgeFrame := by
  cases frames with
  | zero =>
      cases ran
      exact same
  | succ frames => rfl

/-- Frames are delivered part after part. -/
theorem delivered_add {middle : Machine} {first second : Nat}
    (ran : Machine.advanceFrames first start = .ok () middle)
    (further : Machine.advanceFrames second middle = .ok () final)
    : (source.delivered first start middle).delivered second middle final
      = source.delivered (first + second) start final := by
  have captured := Machine.capturedFrames_add ran second
  cases second with
  | zero =>
      cases further
      simp only [delivered, if_pos, Nat.add_zero]
      rfl
  | succ second =>
      have anyLater : second + 1 ≠ 0 := Nat.succ_ne_zero _
      have any : first + (second + 1) ≠ 0 := Nat.succ_ne_zero _
      simp only [delivered, captured, List.foldl_append, if_neg anyLater, if_neg any]

/-- A frame that the machine completes is delivered. -/
theorem publishFrame_of_advanceFrame {next : Machine}
    (same : source.machine.acknowledgeFrame = start.acknowledgeFrame)
    (ran : Machine.advanceFrame start = .ok () next)
    : publishFrame source = .ok () (source.delivered 1 start next)
      ∧ (source.delivered 1 start next).mailbox.waiting = some next.completedFrame := by
  obtain ⟨own, advanced, ownSame⟩ := Machine.advanceFrame_ok_of_same same ran
  rw [publishFrame_of_ok advanced, ownSame]
  simp only [delivered, Machine.capturedFrames_succ ran, if_neg Nat.one_ne_zero]
  exact ⟨rfl, Mailbox.waiting_publish _ _⟩

/-- A run of some frames delivers what a machine completes that is the same once acknowledged. By
induction on the frames: after each of them the machine of the source is acknowledged, which the
other one is not.
-/
theorem runFrames_of_advanceFrames {frames : Nat} (running : source.shutdown = false)
    (same : source.machine.acknowledgeFrame = start.acknowledgeFrame)
    (ran : Machine.advanceFrames frames start = .ok () final) (published : Nat)
    : runFrames frames published source
        = .ok (published + frames) (source.delivered frames start final)
      ∧ source.publishedFrames frames = start.capturedFrames frames := by
  induction frames generalizing source start published with
  | zero => exact ⟨rfl, rfl⟩
  | succ frames ih =>
      obtain ⟨_, next, advanced, rest⟩ := Act.ok_of_bind ran
      obtain ⟨first, waiting⟩ := publishFrame_of_advanceFrame same advanced
      have single : Machine.advanceFrames 1 start = .ok () next := Act.bind_of_ok advanced _
      have going : (source.delivered 1 start next).shutdown = false := running
      obtain ⟨further, shown⟩ :=
        ih going (acknowledgeFrame_delivered same single) rest (published + 1)
      refine ⟨?_, ?_⟩
      · rw [runFrames_succ running, Act.bind_of_ok first, further, delivered_add single rest,
          Nat.add_right_comm, Nat.add_comm 1 frames]
        rfl
      · rw [publishedFrames_succ running first, shown, waiting,
          Machine.capturedFrames_succ advanced]
        rfl

/-- If a frame fails after some that succeed, a longer run fails with it. It has delivered those
before, and its machine is the failed one once acknowledged.
-/
theorem runFrames_of_failure {frames limit : Nat} {broken : Machine} {fault : Fault}
    (running : source.shutdown = false)
    (same : source.machine.acknowledgeFrame = start.acknowledgeFrame)
    (ran : Machine.advanceFrames frames start = .ok () final)
    (failed : Machine.advanceFrame final = .error fault broken) (longer : frames < limit)
    (published : Nat)
    : ∃ machine,
        runFrames limit published source
          = .error fault { source.delivered frames start final with machine }
        ∧ source.publishedFrames limit = start.capturedFrames frames
        ∧ machine.acknowledgeFrame = broken.acknowledgeFrame := by
  obtain ⟨more, rfl⟩ := Nat.exists_eq_add_of_lt longer
  obtain ⟨delivers, shown⟩ := runFrames_of_advanceFrames running same ran published
  obtain ⟨machine, own, ownSame⟩ :=
    Machine.advanceFrame_error_of_same (acknowledgeFrame_delivered same ran) failed
  have last := publishFrame_of_error own
  have going : (source.delivered frames start final).shutdown = false := running
  obtain ⟨goesOn, captured⟩ := runFrames_add delivers (more + 1)
  refine ⟨machine, ?_, ?_, ownSame⟩
  · rw [Nat.add_assoc, goesOn, runFrames_succ going]
    exact Act.bind_of_error last _
  · rw [Nat.add_assoc, captured, shown, publishedFrames, if_neg (by simp [going]), last,
      List.append_nil]

-----------------------------------------------------------------------------------------
-- Runs one after another
-----------------------------------------------------------------------------------------

/-- Some runs, one after another. The result is the counts that they give. -/
def runs : (count : Nat) → Act FrameSource (List Nat)
  | 0 => pure []
  | count + 1 => do
      let first ← run
      let rest ← runs count
      pure (first :: rest)

/-- Some runs of some frames deliver all their frames, by induction on the runs. -/
theorem runs_of_advanceFrames {count frames : Nat} (limited : source.maxFrames = some frames)
    (running : source.shutdown = false)
    (same : source.machine.acknowledgeFrame = start.acknowledgeFrame)
    (ran : Machine.advanceFrames (count * frames) start = .ok () final)
    : runs count source
      = .ok (List.replicate count frames) (source.delivered (count * frames) start final) := by
  induction count generalizing source start with
  | zero =>
      rw [Nat.zero_mul]
      rfl
  | succ count ih =>
      rw [Nat.succ_mul, Nat.add_comm, Machine.advanceFrames_add] at ran
      obtain ⟨_, middle, first, rest⟩ := Act.ok_of_bind ran
      obtain ⟨delivers, -⟩ := runFrames_of_advanceFrames running same first 0
      have begins : run source = .ok frames (source.delivered frames start middle) := by
        rw [run_of_limited limited, delivers, Nat.zero_add]
      have still : (source.delivered frames start middle).maxFrames = some frames := limited
      have others := ih still running (acknowledgeFrame_delivered same first) rest
      rw [delivered_add first rest] at others
      rw [runs, Act.bind_of_ok begins, Act.bind_of_ok others, Nat.succ_mul, Nat.add_comm]
      rfl

end FrameSource

-----------------------------------------------------------------------------------------
-- A machine that fails in its second frame
-----------------------------------------------------------------------------------------

namespace Board

variable {goal elapsed : Nat} {board after : Board}

/-- A run goes on after its first step. -/
theorem runUntil_of_step {clocks : Nat} (begins : elapsed < goal)
    (stepped : step board = .ok clocks after) (spare : Nat)
    : runUntil goal (spare + 1) elapsed board = runUntil goal spare (elapsed + clocks) after := by
  rw [runUntil, if_pos begins, Act.bind_of_ok stepped]

/-- It goes on after all steps whose clocks do not pass the goal, by induction on them: each takes
at least four clocks, so that none of them begins with the goal reached.
-/
theorem runUntil_of_steps {count : Nat} {clocks : List Nat}
    (ran : steps count board = .ok clocks after) (within : elapsed + clocks.sum ≤ goal)
    (spare : Nat)
    : runUntil goal (spare + count) elapsed board
      = runUntil goal spare (elapsed + clocks.sum) after := by
  induction count generalizing board elapsed clocks with
  | zero =>
      cases ran
      rfl
  | succ count ih =>
      obtain ⟨first, rest, middle, stepped, remaining, rfl⟩ := steps_succ_ok ran
      obtain ⟨least, -, -⟩ := clocks_of_step stepped
      rw [List.sum_cons, ← Nat.add_assoc] at within
      have begins : elapsed < goal := by omega
      have further := ih remaining within
      rw [Nat.add_assoc, ← List.sum_cons] at further
      exact (runUntil_of_step begins stepped _).trans further

/-- It fails with its first step, if it may take one. -/
theorem runUntil_of_failure {fault : Fault} (begins : elapsed < goal)
    (failed : step board = .error fault after) (spare : Nat)
    : runUntil goal (spare + 1) elapsed board = .error fault after := by
  rw [runUntil, if_pos begins]
  exact Act.bind_of_error failed _

end Board

namespace Machine

/-- A run of the board that fails is a frame that fails. -/
theorem advanceFrame_of_failure {machine : Machine} {fault : Fault} {board : Board}
    (failed : Board.runUntil clocksPerFrame stepsPerFrame machine.overrun machine.board
      = .error fault board)
    : advanceFrame machine = .error fault ⟨board, machine.overrun⟩ := by
  unfold advanceFrame
  dsimp only
  rw [failed]

/-- A new machine in a halt from which the timer is to wake it. What comes next is no instruction.
-/
def alarmed : Machine :=
  let cpu := { Cpu.afterBoot with pc := 0xFF80, halted := true }
  after { new with board := { new.board with cpu } }
    [.write 0xFF80 0xDD, .write 0xFFFF 0x04, .write 0xFF05 0x9C, .write 0xFF07 0x04]

theorem reachable_alarmed
    : alarmed.Reachable := by
  have started : new.Reachable := .ofSetup _
  refine Reachable.calls (.elsewhere started ?_ ?_) _ <;> rfl

theorem awaitsTimer_alarmed
    : alarmed.board.AwaitsTimer :=
  ⟨rfl, rfl, rfl, rfl, rfl⟩

/-- The timer asks for its interrupt after a hundred periods, in the course of the second frame. -/
theorem isIn_timer_alarmed (cycles : Nat)
    : Interrupt.timer.isIn (alarmed.board.bus.elapse cycles).requests ↔ 25600 ≤ cycles := by
  have silent : ¬Interrupt.timer.isIn alarmed.board.bus.requests := by decide
  rw [Bus.isIn_timer_elapse, Bool.or_eq_true, or_iff_right silent, Timer.tick_asks_iff rfl]
  change 256 ≤ 0x9C + (0 + cycles) / 256 ↔ 25600 ≤ cycles
  omega

theorem silent_alarmed {cycles : Nat} (before : cycles < 25600)
    : Interrupt.timer.isIn (alarmed.board.bus.elapse cycles).requests = false := by
  rw [← Bool.not_eq_true, isIn_timer_alarmed]
  exact Nat.not_le_of_lt before

/-- So the machine sleeps through the first frame. -/
theorem advanceFrame_alarmed
    : advanceFrame alarmed = .ok () ⟨alarmed.board.idled 17556, 0⟩ := by
  have silent : Interrupt.timer.isIn (alarmed.board.bus.elapse 17556).requests = false :=
    silent_alarmed (by omega)
  have sleeps := awaitsTimer_alarmed.steps 17555 silent
  have sum : (List.replicate 17556 4).sum = clocksPerFrame := List.sum_replicate_nat
  have ran : Board.runUntil clocksPerFrame (0 + 17556) 0 alarmed.board
      = .ok clocksPerFrame (alarmed.board.idled 17556) := by
    rw [Board.runUntil_of_steps sleeps (by rw [sum]; decide), sum, Nat.zero_add]
    rfl
  have frame := @advanceFrame_of_ok alarmed _ _ ran
  rwa [Nat.sub_self] at frame

/-- In the course of the second one it wakes and fails. -/
theorem advanceFrame_alarmed_again
    : ∃ broken,
        advanceFrame ⟨alarmed.board.idled 17556, 0⟩
          = .error (.undefinedOpcode 0xDD 0xFF80) broken := by
  have silent : Interrupt.timer.isIn ((alarmed.board.idled 17556).bus.elapse 8043).requests
      = false := by
    rw [Board.elapse_idled]
    exact silent_alarmed (by omega)
  have sleeps := (awaitsTimer_alarmed.idled 17556).steps 8042 silent
  rw [Board.idled_idled] at sleeps
  have asked : Interrupt.timer.isIn ((alarmed.board.idled 25599).bus.elapse 1).requests := by
    rw [Board.elapse_idled, isIn_timer_alarmed]
  have wakes := (awaitsTimer_alarmed.idled 25599).step asked
  obtain ⟨broken, fails⟩
      : ∃ broken,
          Board.step
              (⟨{ ((alarmed.board.idled 25599).idled 1).cpu with halted := false },
                (alarmed.board.idled 25599).bus.elapse 1⟩ : Board)
            = .error (.undefinedOpcode 0xDD 0xFF80) broken :=
    ⟨_, rfl⟩
  have sum : (List.replicate 8043 4).sum = 32172 := List.sum_replicate_nat
  have failed
      : Board.runUntil clocksPerFrame (9511 + 1 + 1 + 8043) 0 (alarmed.board.idled 17556)
        = .error (.undefinedOpcode 0xDD 0xFF80) broken := by
    rw [Board.runUntil_of_steps sleeps (by rw [sum]; decide), sum,
      Board.runUntil_of_step (by decide) wakes, Board.runUntil_of_failure (by decide) fails]
  exact ⟨_, advanceFrame_of_failure failed⟩

end Machine

-----------------------------------------------------------------------------------------
-- Composition
-----------------------------------------------------------------------------------------

/-- Runs compose. Unless a shutdown is requested, some runs of as many frames each and one run of
all their frames give their counts, end in the same machine and leave the same in the mailbox: they
publish what the machine by itself has completed after each frame, so that the last one waits. The
machine is the one that ran by itself, with the picture acknowledged. If a frame of a run fails, so
does the run. The frames before it are published and the last of them waits, or what waited before
the run.
-/
theorem runs_compose (source : FrameSource) (running : source.shutdown = false)
    : (∀ count frames final,
        Machine.advanceFrames (count * frames) source.machine = .ok () final →
        let captured := source.machine.capturedFrames (count * frames)
        let short : FrameSource := { source with maxFrames := some frames }
        let long : FrameSource := { source with maxFrames := some (count * frames) }
        ∃ machine mailbox,
          FrameSource.runs count short
            = .ok (List.replicate count frames) { short with machine, mailbox }
          ∧ FrameSource.run long = .ok (count * frames) { long with machine, mailbox }
          ∧ machine = (if count * frames = 0 then final else final.acknowledgeFrame)
          ∧ long.publishedFrames (count * frames) = captured
          ∧ captured.length = count * frames
          ∧ mailbox = captured.foldl Mailbox.publish source.mailbox
          ∧ mailbox.waiting
            = if count * frames = 0 then source.mailbox.waiting else some final.completedFrame)
      ∧ ∀ frames final broken fault,
          Machine.advanceFrames frames source.machine = .ok () final →
          Machine.advanceFrame final = .error fault broken →
          frames < source.maxFrames.getD FrameSource.frameCounterLimit →
          let captured := source.machine.capturedFrames frames
          ∃ machine mailbox,
            FrameSource.run source = .error fault { source with machine, mailbox }
            ∧ machine.acknowledgeFrame = broken.acknowledgeFrame
            ∧ source.publishedFrames (source.maxFrames.getD FrameSource.frameCounterLimit)
              = captured
            ∧ captured.length = frames
            ∧ mailbox = captured.foldl Mailbox.publish source.mailbox
            ∧ mailbox.waiting
              = if frames = 0 then source.mailbox.waiting else some final.completedFrame := by
  refine ⟨?_, ?_⟩
  · intro count frames final ran captured short long
    have limited : short.maxFrames = some frames := rfl
    have going : long.shutdown = false := running
    have shorts := FrameSource.runs_of_advanceFrames limited running rfl ran
    obtain ⟨whole, published⟩ := FrameSource.runFrames_of_advanceFrames going rfl ran 0
    have run := (FrameSource.run_of_limited rfl).trans whole
    rw [Nat.zero_add] at run
    obtain ⟨length, -⟩ := Machine.capturedFrames_of_ok ran
    have waiting := @FrameSource.waiting_delivered long _ _ _ ran
    refine ⟨_, _, shorts, run, ?_, published, length, rfl, waiting⟩
    by_cases idle : count * frames = 0
    · rw [if_pos idle, if_pos idle]
      rw [idle] at ran
      cases ran
      rfl
    · rw [if_neg idle, if_neg idle]
  · intro frames final broken fault ran failed within captured
    obtain ⟨machine, run, published, same⟩ :=
      FrameSource.runFrames_of_failure running rfl ran failed within 0
    obtain ⟨length, -⟩ := Machine.capturedFrames_of_ok ran
    have waiting := @FrameSource.waiting_delivered source _ _ _ ran
    exact ⟨machine, _, run, same, published, length, rfl, waiting⟩

/-- A source without anything published yet. -/
def FrameSource.ofMachine (machine : Machine) (maxFrames : Option Nat) : FrameSource :=
  { machine, mailbox := .initial, shutdown := false, maxFrames }

/-- The machine of a run is not in general the one that ran by itself. Where this one announces the
picture that it completed, the run has acknowledged it.
-/
theorem run_acknowledges_halting
    : ∃ final after,
        Machine.advanceFrames 1 (Machine.new.insert .halting) = .ok () final
        ∧ FrameSource.run (.ofMachine (Machine.new.insert .halting) (some 1)) = .ok 1 after
        ∧ final.board.bus.video.frameReady = true
        ∧ after.machine.board.bus.video.frameReady = false
        ∧ after.machine ≠ final := by
  obtain ⟨final, ran, kept⟩ := Machine.dozes_halting.advanceFrames 1
  have pace := (Machine.onPace_new .halting).advanceFrames ran kept
  obtain ⟨_, next, first, rest⟩ := Act.ok_of_bind ran
  cases rest
  have announced : final.board.bus.video.frameReady = true := by
    refine Machine.frameReady_of_completed first ?_
    rw [pace.frames_eq]
    exact Nat.zero_lt_one
  let source := FrameSource.ofMachine (Machine.new.insert .halting) (some 1)
  have running : source.shutdown = false := rfl
  obtain ⟨delivers, -⟩ := FrameSource.runFrames_of_advanceFrames running rfl ran 0
  refine ⟨final, _, ran, (FrameSource.run_of_limited rfl).trans delivers, announced, rfl, ?_⟩
  intro same
  have ready := congrArg (·.board.bus.video.frameReady) same
  rw [announced] at ready
  cases ready

/-- Two runs of three frames and one run of six are the same for a machine that halts. A run of the
machine with the alarm fails in its second frame and leaves the first one waiting.
-/
theorem runs_compose_halting
    : (∃ final machine mailbox,
        let short := FrameSource.ofMachine (Machine.new.insert .halting) (some 3)
        let long := FrameSource.ofMachine (Machine.new.insert .halting) (some 6)
        Machine.advanceFrames 6 (Machine.new.insert .halting) = .ok () final
        ∧ FrameSource.runs 2 short = .ok [3, 3] { short with machine, mailbox }
        ∧ FrameSource.run long = .ok 6 { long with machine, mailbox }
        ∧ machine = final.acknowledgeFrame
        ∧ mailbox.waiting = some final.completedFrame)
      ∧ Machine.alarmed.Reachable
      ∧ ∃ final after,
          Machine.advanceFrame .alarmed = .ok () final
          ∧ FrameSource.run (.ofMachine .alarmed none)
            = .error (.undefinedOpcode 0xDD 0xFF80) after
          ∧ after.mailbox.waiting = some final.completedFrame := by
  refine ⟨?_, Machine.reachable_alarmed, ?_⟩
  · obtain ⟨final, ran, -⟩ := Machine.dozes_halting.advanceFrames 6
    obtain ⟨machine, mailbox, short, long, same, -, -, -, waiting⟩ :=
      (runs_compose (.ofMachine (Machine.new.insert .halting) (some 3)) rfl).1 2 3 final ran
    exact ⟨final, machine, mailbox, ran, short, long, same, waiting⟩
  · have frame := Machine.advanceFrame_alarmed
    have first := Act.bind_of_ok frame fun _ => Machine.advanceFrames 0
    obtain ⟨broken, failed⟩ := Machine.advanceFrame_alarmed_again
    obtain ⟨machine, mailbox, run, -, -, -, -, waiting⟩ :=
      (runs_compose (.ofMachine .alarmed none) rfl).2 1 _ broken _ first failed (by decide)
    exact ⟨_, _, frame, run, waiting⟩

end Handheld
