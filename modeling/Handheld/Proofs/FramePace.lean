import Handheld.FrameSource
import Handheld.Proofs.Board.Asleep

/-! One picture in every frame. As long as no write switches the display off, a machine that
has run for some frames has completed as many pictures, and a frame source numbers the frames
that it publishes without gaps.
-/

namespace Handheld

-----------------------------------------------------------------------------------------
-- One frame
-----------------------------------------------------------------------------------------

namespace Machine

/-- What is noticed while a machine runs for a frame. -/
def frameEvents (machine : Machine) : List Board.Event :=
  Probed.eventsOf (Board.runUntil clocksPerFrame stepsPerFrame machine.overrun) machine.board

/-- A machine that has run for some frames: little has run over, and the video unit has counted
the clocks of all frames from the position at which it started.
-/
structure OnPace (machine : Machine) (frames : Nat) : Prop where
  overrun : machine.overrun ≤ 40
  cycles : 4 ∣ machine.overrun
  counted : machine.board.bus.video.Settled
    (10 * Video.lineClocks + frames * clocksPerFrame + machine.overrun)

/-- It has completed as many pictures: what it has counted beyond them is less than a frame. -/
theorem OnPace.frames_eq {machine : Machine} {frames : Nat} (pace : machine.OnPace frames)
    : machine.board.bus.video.frames = frames := by
  have overrun := pace.overrun
  rw [pace.counted.frames_eq]
  unfold Video.frameClocks Video.lineClocks clocksPerFrame
  omega

/-- A new machine is on pace, whatever its cartridge. -/
theorem onPace_new (cartridge : Cartridge)
    : (new.insert cartridge).OnPace 0 where
  overrun := Nat.zero_le 40
  cycles := Nat.dvd_zero 4
  counted := Video.settled_afterBoot

/-- So is one whose completed picture is acknowledged. -/
theorem OnPace.acknowledgeFrame {machine : Machine} {frames : Nat} (pace : machine.OnPace frames)
    : machine.acknowledgeFrame.OnPace frames where
  overrun := pace.overrun
  cycles := pace.cycles
  counted :=
    { on := pace.counted.on
      inFrame := pace.counted.inFrame
      blanking := pace.counted.blanking
      counted := pace.counted.counted
      clock := pace.counted.clock }

/-- A frame is a run of the board until its clocks have elapsed. -/
theorem advanceFrame_ok {machine after : Machine}
    (ran : advanceFrame machine = .ok () after)
    : ∃ total,
        Board.runUntil clocksPerFrame stepsPerFrame machine.overrun machine.board
          = .ok total after.board
        ∧ after.overrun = total - clocksPerFrame := by
  unfold advanceFrame at ran
  dsimp only at ran
  split at ran
  · cases ran
    exact ⟨_, ‹_›, rfl⟩
  · cases ran

/-- A run of the board until the clocks of a frame have elapsed is a frame. -/
theorem advanceFrame_of_ok {machine : Machine} {total : Nat} {board : Board}
    (ran : Board.runUntil clocksPerFrame stepsPerFrame machine.overrun machine.board
      = .ok total board)
    : advanceFrame machine = .ok () ⟨board, total - clocksPerFrame⟩ := by
  unfold advanceFrame
  dsimp only
  rw [ran]

/-- One more frame keeps the pace, unless a write switches the display off in it. -/
theorem OnPace.advanceFrame {machine after : Machine} {frames : Nat}
    (pace : machine.OnPace frames) (ran : Machine.advanceFrame machine = .ok () after)
    (kept : ¬Board.SwitchesOff machine.frameEvents)
    : after.OnPace (frames + 1) := by
  obtain ⟨total, elapsed, excess⟩ := advanceFrame_ok ran
  have overrun := pace.overrun
  have enough : clocksPerFrame ≤ machine.overrun + 4 * stepsPerFrame := by
    unfold stepsPerFrame clocksPerFrame Board.clocksPerCycle
    omega
  obtain ⟨least, most, cycles⟩ :=
    Board.total_of_runUntil elapsed (by decide) pace.cycles (by omega) enough
  obtain ⟨_, observed, same⟩ :=
    Probed.ok_of_besideBoard (Probed.besideBoard_keepsStep.runUntil _ _ _) elapsed
  rw [same] at observed
  have start : Board.OnPace (10 * Video.lineClocks + frames * clocksPerFrame + machine.overrun)
      machine.board.bus [] := .inr pace.counted
  have counted := (Board.OnPace.runUntil start observed).resolve_left kept
  have whole : 4 ∣ clocksPerFrame := by decide
  have clocks : 10 * Video.lineClocks + frames * clocksPerFrame + total
      = 10 * Video.lineClocks + (frames + 1) * clocksPerFrame + after.overrun := by
    rw [excess, Nat.add_mul]
    omega
  refine ⟨by omega, by omega, ?_⟩
  rw [← clocks]
  exact counted

-----------------------------------------------------------------------------------------
-- Frame after frame
-----------------------------------------------------------------------------------------

/-- Some frames, one after another. -/
def advanceFrames : (frames : Nat) → Act Machine Unit
  | 0 => pure ()
  | frames + 1 => do
      advanceFrame
      advanceFrames frames

/-- What is noticed while a machine runs for some frames, up to a fault. -/
def eventsOfFrames : (frames : Nat) → Machine → List Board.Event
  | 0, _ => []
  | frames + 1, machine =>
      match advanceFrame machine with
      | .ok _ after => machine.frameEvents ++ eventsOfFrames frames after
      | .error _ _ => machine.frameEvents

/-- Any number of frames keeps the pace, by induction on them. -/
theorem OnPace.advanceFrames {machine after : Machine} {before frames : Nat}
    (pace : machine.OnPace before) (ran : Machine.advanceFrames frames machine = .ok () after)
    (kept : ¬Board.SwitchesOff (machine.eventsOfFrames frames))
    : after.OnPace (before + frames) := by
  induction frames generalizing machine before with
  | zero =>
      cases ran
      exact pace
  | succ frames ih =>
      obtain ⟨_, next, first, rest⟩ := Act.ok_of_bind ran
      rw [eventsOfFrames, first] at kept
      have advanced := pace.advanceFrame first
        fun off => kept (off.mono (List.subset_append_left _ _))
      have final := ih advanced rest fun off => kept (off.mono (List.subset_append_right _ _))
      rw [Nat.add_right_comm] at final
      exact final

end Machine

-----------------------------------------------------------------------------------------
-- Published frames
-----------------------------------------------------------------------------------------

namespace FrameSource

/-- What is noticed while at most some frames are published. -/
def eventsOfRun : (limit : Nat) → FrameSource → List Board.Event
  | 0, _ => []
  | limit + 1, source =>
      if source.shutdown then []
      else
        match publishFrame source with
        | .ok _ after => source.machine.frameEvents ++ eventsOfRun limit after
        | .error _ _ => source.machine.frameEvents

/-- What waits in the mailbox after each of at most some frames. -/
def publishedFrames : (limit : Nat) → FrameSource → List Frame
  | 0, _ => []
  | limit + 1, source =>
      if source.shutdown then []
      else
        match publishFrame source with
        | .ok _ after => after.mailbox.waiting.toList ++ publishedFrames limit after
        | .error _ _ => []

/-- A published frame is a frame of the machine, acknowledged and put into the mailbox. -/
theorem publishFrame_ok {source after : FrameSource}
    (ran : publishFrame source = .ok () after)
    : ∃ machine,
        Machine.advanceFrame source.machine = .ok () machine
        ∧ after.machine = machine.acknowledgeFrame
        ∧ after.mailbox.waiting = some machine.acknowledgeFrame.completedFrame
        ∧ after.shutdown = source.shutdown := by
  unfold publishFrame at ran
  dsimp only at ran
  split at ran
  · cases ran
    exact ⟨_, ‹_›, rfl, Mailbox.waiting_publish _ _, rfl⟩
  · cases ran

/-- With a frame of the machine a frame is published. -/
theorem publishFrame_of_ok {source : FrameSource} {machine : Machine}
    (ran : Machine.advanceFrame source.machine = .ok () machine)
    : publishFrame source
      = .ok ()
        { source with
          machine := machine.acknowledgeFrame
          mailbox := source.mailbox.publish machine.acknowledgeFrame.completedFrame } := by
  unfold publishFrame
  dsimp only
  rw [ran]

/-- A run with a limit publishes at most as many frames. -/
theorem run_of_limited {source : FrameSource} {frames : Nat}
    (limited : source.maxFrames = some frames)
    : FrameSource.run source = runFrames frames 0 source := by
  change runFrames (source.maxFrames.getD frameCounterLimit) 0 source = _
  rw [limited, Option.getD_some]

/-- Unless a shutdown is requested, a frame is published and then the others. -/
theorem runFrames_succ {source : FrameSource} (running : source.shutdown = false)
    (limit published : Nat)
    : runFrames (limit + 1) published source
      = (publishFrame >>= fun _ => runFrames limit (published + 1)) source := by
  change (if source.shutdown then pure published
    else publishFrame >>= fun _ => runFrames limit (published + 1)) source = _
  rw [if_neg (by simp [running])]

/-- If a shutdown is requested, nothing is published. -/
theorem runFrames_of_shutdown {source : FrameSource} (requested : source.shutdown = true)
    (limit published : Nat)
    : runFrames limit published source = .ok published source := by
  cases limit with
  | zero => rfl
  | succ limit =>
      change (if source.shutdown then pure published
        else publishFrame >>= fun _ => runFrames limit (published + 1)) source = _
      rw [if_pos requested]
      rfl

theorem publishedFrames_succ {source next : FrameSource} (running : source.shutdown = false)
    (first : publishFrame source = .ok () next) (limit : Nat)
    : source.publishedFrames (limit + 1)
      = next.mailbox.waiting.toList ++ next.publishedFrames limit := by
  rw [publishedFrames, if_neg (by simp [running]), first]

/-- With one frame more, that frame is the last one, by induction on the others. -/
theorem runFrames_concat {source middle after : FrameSource} {frames published total : Nat}
    (ran : runFrames frames published source = .ok total middle)
    (running : middle.shutdown = false) (last : publishFrame middle = .ok () after)
    : runFrames (frames + 1) published source = .ok (total + 1) after
      ∧ source.publishedFrames (frames + 1)
        = source.publishedFrames frames ++ after.mailbox.waiting.toList := by
  induction frames generalizing source published with
  | zero =>
      cases ran
      exact ⟨(runFrames_succ running ..).trans (Act.bind_of_ok last _),
        (publishedFrames_succ running last _).trans (List.append_nil _)⟩
  | succ frames ih =>
      cases begun : source.shutdown with
      | true =>
          rw [runFrames_of_shutdown begun] at ran
          cases ran
          cases running.symm.trans begun
      | false =>
          rw [runFrames_succ begun] at ran
          obtain ⟨_, next, first, rest⟩ := Act.ok_of_bind ran
          obtain ⟨further, frames⟩ := ih rest
          rw [runFrames_succ begun, publishedFrames_succ begun first,
            publishedFrames_succ begun first, frames, List.append_assoc]
          exact ⟨(Act.bind_of_ok first _).trans further, rfl⟩

/-- Frames published on pace are as many as asked for and numbered one after another, by
induction on how many are asked for.
-/
theorem numbers_of_runFrames {source after : FrameSource} {limit published count before : Nat}
    (pace : source.machine.OnPace before) (running : source.shutdown = false)
    (ran : runFrames limit published source = .ok count after)
    (kept : ¬Board.SwitchesOff (source.eventsOfRun limit))
    : count = published + limit
      ∧ (source.publishedFrames limit).map (·.number) = List.range' (before + 1) limit := by
  induction limit generalizing source published before with
  | zero =>
      cases ran
      exact ⟨rfl, rfl⟩
  | succ limit ih =>
      rw [runFrames_succ running] at ran
      obtain ⟨_, next, first, rest⟩ := Act.ok_of_bind ran
      obtain ⟨machine, advanced, current, waiting, shutdown⟩ := publishFrame_ok first
      rw [eventsOfRun, if_neg (by simp [running]), first] at kept
      have advancedPace := pace.advanceFrame advanced
        fun off => kept (off.mono (List.subset_append_left _ _))
      have nextPace : next.machine.OnPace (before + 1) := current ▸ advancedPace.acknowledgeFrame
      obtain ⟨counted, numbers⟩ := ih nextPace (shutdown.trans running) rest
        fun off => kept (off.mono (List.subset_append_right _ _))
      refine ⟨by omega, ?_⟩
      rw [publishedFrames_succ running first]
      simp only [waiting, Option.toList_some, List.singleton_append, List.map_cons, numbers]
      rw [List.range'_succ]
      exact congrArg (· :: _) advancedPace.acknowledgeFrame.frames_eq

end FrameSource

/-- One picture in every frame. From a new machine with any cartridge, some frames during which
no write switches the display off complete as many pictures; and a frame source that is asked
for some frames publishes as many, numbered from one on.
-/
theorem frames_on_pace (cartridge : Cartridge)
    : (∀ frames after,
        Machine.advanceFrames frames (Machine.new.insert cartridge) = .ok () after
        → ¬Board.SwitchesOff ((Machine.new.insert cartridge).eventsOfFrames frames)
        → after.board.bus.video.frames = frames)
      ∧ ∀ (source after : FrameSource) (frames count : Nat),
          source.machine = Machine.new.insert cartridge
          → source.shutdown = false
          → source.maxFrames = some frames
          → FrameSource.run source = .ok count after
          → ¬Board.SwitchesOff (source.eventsOfRun frames)
          → count = frames
            ∧ (source.publishedFrames frames).map (·.number) = List.range' 1 frames := by
  constructor
  · intro frames after ran kept
    have pace := (Machine.onPace_new cartridge).advanceFrames ran kept
    rw [Nat.zero_add] at pace
    exact pace.frames_eq
  · intro source after frames count machine running limited ran kept
    rw [FrameSource.run_of_limited limited] at ran
    have pace : source.machine.OnPace 0 := machine ▸ Machine.onPace_new cartridge
    have published := FrameSource.numbers_of_runFrames pace running ran kept
    rw [Nat.zero_add] at published
    exact published

-----------------------------------------------------------------------------------------
-- A machine that falls asleep
-----------------------------------------------------------------------------------------

namespace Machine

/-- The machine runs a frame in which the display is not switched off, and is asleep then. -/
def Dozes (machine : Machine) : Prop :=
  ∃ after,
    advanceFrame machine = .ok () after
    ∧ after.board.Asleep
    ∧ ¬Board.SwitchesOff machine.frameEvents

/-- A machine dozes when a run under observation ends asleep. -/
theorem dozes_of_runUntil {machine : Machine} {total : Nat} {after : Probed}
    (ran : Board.runUntil clocksPerFrame stepsPerFrame machine.overrun
      (Probed.ofBoard machine.board) = .ok total after)
    (slept : after.board.Asleep) (kept : ¬Board.SwitchesOff after.events)
    : machine.Dozes := by
  obtain ⟨_, alone, rfl⟩ := Probed.plain_of_ok (Probed.besideBoard_keepsStep.runUntil _ _ _) ran
  refine ⟨_, advanceFrame_of_ok alone, slept, ?_⟩
  rw [frameEvents, Probed.eventsOf, Act.endsIn, ran]
  exact kept

/-- A machine asleep dozes. -/
theorem dozes_of_asleep {machine : Machine} (asleep : machine.board.Asleep)
    : machine.Dozes := by
  have starting : (Probed.ofBoard machine.board).board.Asleep := asleep
  obtain ⟨total, after, ran, slept, same⟩ :=
    starting.runUntil clocksPerFrame stepsPerFrame machine.overrun
  refine dozes_of_runUntil ran slept ?_
  rw [same]
  rintro ⟨value, written, -⟩
  cases written

/-- So does one that is asleep after its first step, unless that switches the display off. -/
theorem dozes_of_step {machine : Machine} {clocks : Nat} {middle : Probed}
    (begins : machine.overrun < clocksPerFrame)
    (stepped : Board.step (Probed.ofBoard machine.board) = .ok clocks middle)
    (asleep : middle.board.Asleep) (kept : ¬Board.SwitchesOff middle.events)
    : machine.Dozes := by
  obtain ⟨total, after, rest, slept, same⟩ :=
    asleep.runUntil clocksPerFrame (stepsPerFrame - 1) (machine.overrun + clocks)
  have ran : Board.runUntil clocksPerFrame (stepsPerFrame - 1 + 1) machine.overrun
      (Probed.ofBoard machine.board) = .ok total after := by
    rw [Board.runUntil, if_pos begins]
    exact (Act.bind_of_ok stepped _).trans rest
  exact dozes_of_runUntil ran slept (same ▸ kept)

/-- A machine that dozes runs for any number of frames, by induction on them. -/
theorem Dozes.advanceFrames {machine : Machine} (dozes : machine.Dozes) (frames : Nat)
    : ∃ after,
        Machine.advanceFrames frames machine = .ok () after
        ∧ ¬Board.SwitchesOff (machine.eventsOfFrames frames) := by
  induction frames generalizing machine with
  | zero => exact ⟨machine, rfl, Board.not_switchesOff_nil⟩
  | succ frames ih =>
      obtain ⟨next, first, slept, kept⟩ := dozes
      obtain ⟨after, rest, quiet⟩ := ih (dozes_of_asleep slept)
      refine ⟨after, (Act.bind_of_ok first _).trans rest, ?_⟩
      rw [eventsOfFrames, first, Board.switchesOff_append]
      exact not_or.mpr ⟨kept, quiet⟩

end Machine

namespace FrameSource

/-- A frame source with such a machine publishes a frame, and its machine still dozes then. -/
theorem publishFrame_of_dozes {source : FrameSource} (dozes : source.machine.Dozes)
    : ∃ next,
        publishFrame source = .ok () next
        ∧ next.machine.Dozes
        ∧ next.shutdown = source.shutdown
        ∧ ¬Board.SwitchesOff source.machine.frameEvents := by
  obtain ⟨machine, advanced, slept, kept⟩ := dozes
  have asleep : machine.acknowledgeFrame.board.Asleep :=
    ⟨slept.halted, slept.notStopped, slept.noEnables, slept.leftBoot⟩
  exact ⟨_, publishFrame_of_ok advanced, Machine.dozes_of_asleep asleep, rfl, kept⟩

/-- It publishes any number of frames, by induction on them. -/
theorem runFrames_of_dozes (source : FrameSource) (dozes : source.machine.Dozes)
    (running : source.shutdown = false) (limit published : Nat)
    : ∃ count after,
        runFrames limit published source = .ok count after
        ∧ ¬Board.SwitchesOff (source.eventsOfRun limit) := by
  induction limit generalizing source published with
  | zero => exact ⟨published, source, rfl, Board.not_switchesOff_nil⟩
  | succ limit ih =>
      obtain ⟨next, first, dozing, same, kept⟩ := publishFrame_of_dozes dozes
      obtain ⟨count, after, rest, quiet⟩ :=
        ih next dozing (same.trans running) (published + 1)
      refine ⟨count, after, ?_, ?_⟩
      · rw [runFrames_succ running]
        exact (Act.bind_of_ok first _).trans rest
      · rw [eventsOfRun, if_neg (by simp [running]), first, Board.switchesOff_append]
        exact not_or.mpr ⟨kept, quiet⟩

end FrameSource

/-- A cartridge that holds nothing but halt instructions. -/
def Cartridge.halting : Cartridge :=
  { rom := filledBytes 0x101 0x76, ram := .empty, title := "", typeCode := 0
    controller := .fixed }

set_option maxRecDepth 4096 in
/-- A new machine with that cartridge is asleep after its first step. -/
theorem Machine.dozes_halting
    : (Machine.new.insert .halting).Dozes := by
  refine dozes_of_step (by decide) rfl ⟨rfl, rfl, rfl, rfl⟩ ?_
  rintro ⟨value, written, -⟩
  rcases List.mem_singleton.mp written with ⟨⟩

/-- It completes a picture in each of sixty frames, and a source publishes them in order. -/
theorem frames_on_pace_halting
    : (∃ after,
        Machine.advanceFrames 60 (Machine.new.insert .halting) = .ok () after
        ∧ after.board.bus.video.frames = 60)
      ∧ ∃ source after,
          source.machine = Machine.new.insert .halting
          ∧ FrameSource.run source = .ok 60 after
          ∧ (source.publishedFrames 60).map (·.number) = List.range' 1 60 := by
  constructor
  · obtain ⟨after, ran, kept⟩ := Machine.dozes_halting.advanceFrames 60
    exact ⟨after, ran, (frames_on_pace .halting).1 60 after ran kept⟩
  · let source : FrameSource :=
      { machine := Machine.new.insert .halting, mailbox := .initial, shutdown := false
        maxFrames := some 60 }
    have dozes : source.machine.Dozes := Machine.dozes_halting
    obtain ⟨count, after, publishing, kept⟩ := source.runFrames_of_dozes dozes rfl 60 0
    have ran : FrameSource.run source = .ok count after := by
      rw [FrameSource.run_of_limited rfl]
      exact publishing
    obtain ⟨rfl, numbers⟩ := (frames_on_pace .halting).2 source after 60 count rfl rfl rfl ran kept
    exact ⟨source, after, rfl, ran, numbers⟩

end Handheld
