import Mathlib.Data.List.Induction
import Handheld.Proofs.Exchange
import Handheld.Proofs.FramePace
import Handheld.Session.Playback

/-! A run with a viewer beside it. One side runs the machine and publishes its frames, the other one
views them. Each operation on the mailbox and on the request for a shutdown is a step of its own,
and the steps of the two sides mix in any order.
-/

namespace Handheld

namespace Showing

/-- Where the side that runs the machine stands. -/
inductive SourceStage where
  /-- About to look whether the run goes on. -/
  | checking (frames : Nat)
  /-- About to run one more frame. -/
  | running (frames : Nat)
  /-- Publishing that frame. -/
  | publishing (frames : Nat)
  /-- The run is over. -/
  | ended (result : Except Fault Nat)
  /-- The shutdown is requested as well. -/
  | announced (result : Except Fault Nat)
  /-- The publisher is gone as well. -/
  | gone (result : Except Fault Nat)

/-- Where the viewer stands. -/
inductive ViewerStage where
  /-- About to look for a request for a shutdown. -/
  | checking
  /-- It saw none, and is about to look for a frame. -/
  | receiving
  /-- Waiting for the other side to be gone. -/
  | joining
  /-- About to look for a frame once more. -/
  | collecting (frames : Nat)
  | finished (frames : Nat)
  | failed (fault : Fault)

/-- Where a turn leaves a viewer. -/
def ViewerStage.afterTurn : ViewerTurn Frame → ViewerStage
  | .view _ | .wait => checking
  | .stop => joining

end Showing

/-- The two sides of a run with what they share. -/
structure Showing where
  machine : Machine
  maxFrames : Option Nat
  exchange : Exchange Frame
  /-- Whether a shutdown was requested. -/
  shutdown : Bool
  latest : LatestFrame
  source : Showing.SourceStage
  viewer : Showing.ViewerStage

namespace Showing

def start (machine : Machine) (maxFrames : Option Nat) : Showing :=
  { machine, maxFrames, exchange := .initial, shutdown := false, latest := .initial
    source := .checking 0, viewer := .checking }

/-- A step of the side that runs the machine. -/
inductive SourceStep (showing : Showing) : Showing → Prop where
  | goOn {frames : Nat}
    : showing.source = .checking frames
      → showing.shutdown = false
      → (∀ most ∈ showing.maxFrames, frames < most)
      → SourceStep showing { showing with source := .running frames }
  | leave {frames : Nat}
    : showing.source = .checking frames
      → (showing.shutdown = true ∨ ∃ most ∈ showing.maxFrames, most ≤ frames)
      → SourceStep showing { showing with source := .ended (.ok frames) }
  | publish {frames : Nat} {machine : Machine}
    : showing.source = .running frames
      → Machine.advanceFrame showing.machine = .ok () machine
      → SourceStep showing
        { showing with
          machine := machine.acknowledgeFrame
          exchange := showing.exchange.offer machine.acknowledgeFrame.completedFrame
          source := .publishing frames }
  | fail {frames : Nat} {machine : Machine} {fault : Fault}
    : showing.source = .running frames
      → Machine.advanceFrame showing.machine = .error fault machine
      → SourceStep showing { showing with machine, source := .ended (.error fault) }
  | proceed {frames : Nat}
    : showing.source = .publishing frames
      → SourceStep showing { showing with exchange := showing.exchange.proceed }
  | count {frames : Nat}
    : showing.source = .publishing frames
      → showing.exchange.publisher = .idle
      → SourceStep showing { showing with source := .checking (frames + 1) }
  | request {result : Except Fault Nat}
    : showing.source = .ended result
      → SourceStep showing { showing with shutdown := true, source := .announced result }
  | close {result : Except Fault Nat}
    : showing.source = .announced result
      → SourceStep showing
        { showing with exchange := showing.exchange.close, source := .gone result }

/-- A step of the viewer. -/
inductive ViewerStep (showing : Showing) : Showing → Prop where
  | goOn
    : showing.viewer = .checking
      → showing.shutdown = false
      → ViewerStep showing { showing with viewer := .receiving }
  | leave
    : showing.viewer = .checking
      → showing.shutdown = true
      → ViewerStep showing { showing with viewer := .joining }
  | receive
    : showing.viewer = .receiving
      → ViewerStep showing
        { showing with
          exchange := showing.exchange.receive
          latest := showing.latest.collect showing.exchange.mailbox
          viewer := .afterTurn (showing.exchange.mailbox.turn false).2 }
  | join {frames : Nat}
    : showing.viewer = .joining
      → showing.source = .gone (.ok frames)
      → ViewerStep showing { showing with viewer := .collecting frames }
  | fail {fault : Fault}
    : showing.viewer = .joining
      → showing.source = .gone (.error fault)
      → ViewerStep showing { showing with viewer := .failed fault }
  | collect {frames : Nat}
    : showing.viewer = .collecting frames
      → ViewerStep showing
        { showing with
          exchange := showing.exchange.receive
          latest := showing.latest.collect showing.exchange.mailbox
          viewer := .finished frames }

/-- A step of either side. -/
inductive Step (before after : Showing) : Prop where
  | source : SourceStep before after → Step before after
  | viewer : ViewerStep before after → Step before after

/-- Any steps of the two sides, in any order. -/
abbrev Leads : Showing → Showing → Prop :=
  Relation.ReflTransGen Step

-----------------------------------------------------------------------------------------
-- The side that runs the machine
-----------------------------------------------------------------------------------------

namespace SourceStage

/-- The frames published up to a stage, unless the run failed. -/
def published? : SourceStage → Option Nat
  | checking frames | running frames => some frames
  | publishing frames => some (frames + 1)
  | ended result | announced result | gone result => result.toOption

/-- Whether the shutdown is requested. -/
def requested : SourceStage → Bool
  | announced _ | gone _ => true
  | checking _ | running _ | publishing _ | ended _ => false

/-- Where the publisher may stand. -/
def Admits : SourceStage → Publisher Frame → Prop
  | publishing _, _ => True
  | gone _, publisher => publisher = .gone
  | checking _, publisher
  | running _, publisher
  | ended _, publisher
  | announced _, publisher => publisher = .idle

/-- A run with a limit ends there, unless it fails before. -/
def Heeds : SourceStage → (limit : Option Nat) → Prop
  | checking frames, limit => ∀ most ∈ limit, frames ≤ most
  | running frames, limit | publishing frames, limit => ∀ most ∈ limit, frames < most
  | ended result, limit | announced result, limit | gone result, limit =>
      ∀ frames ∈ result.toOption, limit = some frames

end SourceStage

/-- The source that a run without a viewer beside it starts with. -/
def alone (machine : Machine) (maxFrames : Option Nat) : FrameSource :=
  { machine, mailbox := .initial, shutdown := false, maxFrames }

/-- The frames published are those of a run without a viewer beside it. -/
def Retraces (showing : Showing) (start : FrameSource) (frames : Nat) : Prop :=
  showing.exchange.published.length = frames
  ∧ start.publishedFrames frames = showing.exchange.published
  ∧ ∃ source,
      FrameSource.runFrames frames 0 start = .ok frames source
      ∧ source.machine = showing.machine
      ∧ source.shutdown = false
      ∧ source.mailbox.waiting = showing.exchange.published.getLast?

/-- What holds of the side that runs the machine, and of what it shares. -/
structure Sourced (start : FrameSource) (showing : Showing) : Prop where
  exchange : Exchange.initial.Leads showing.exchange
  publisher : showing.source.Admits showing.exchange.publisher
  shutdown : showing.shutdown = showing.source.requested
  limit : showing.maxFrames = start.maxFrames
  heeds : showing.source.Heeds start.maxFrames
  retraces : ∀ frames ∈ showing.source.published?, showing.Retraces start frames

theorem sourced_start (machine : Machine) (maxFrames : Option Nat)
    : Sourced (alone machine maxFrames) (start machine maxFrames) where
  exchange := .refl
  publisher := rfl
  shutdown := rfl
  limit := rfl
  heeds most _ := Nat.zero_le most
  retraces frames zero := by
    cases zero
    exact ⟨rfl, rfl, _, rfl, rfl, rfl, rfl⟩

/-- A frame more is retraced as well. -/
theorem Retraces.publish {showing : Showing} {start : FrameSource} {frames : Nat}
    (retraces : showing.Retraces start frames) {machine : Machine}
    (ran : Machine.advanceFrame showing.machine = .ok () machine) {after : Showing}
    (current : after.machine = machine.acknowledgeFrame)
    (published : after.exchange.published
      = showing.exchange.published ++ [machine.acknowledgeFrame.completedFrame])
    : after.Retraces start (frames + 1) := by
  obtain ⟨counted, same, source, alone, atMachine, running, waiting⟩ := retraces
  rw [← atMachine] at ran
  have last := FrameSource.publishFrame_of_ok ran
  obtain ⟨further, frames⟩ := FrameSource.runFrames_concat alone running last
  rw [Mailbox.waiting_publish, same] at frames
  refine ⟨?_, frames.trans published.symm, _, further, current.symm, running, ?_⟩
  · rw [published, List.length_append, counted]
    rfl
  · rw [published, List.getLast?_concat]
    exact Mailbox.waiting_publish _ _

/-- Every step of this side keeps it, by cases of the step. -/
theorem Sourced.sourceStep {start : FrameSource} {before after : Showing}
    (sourced : Sourced start before) (step : SourceStep before after)
    : Sourced start after := by
  obtain ⟨exchange, publisher, shutdown, limit, heeds, retraces⟩ := sourced
  cases step with
  | goOn stage quiet below =>
      rw [stage] at publisher shutdown heeds retraces
      exact ⟨exchange, publisher, shutdown, limit, limit ▸ below, retraces⟩
  | leave stage reason =>
      rw [stage] at publisher shutdown heeds retraces
      refine ⟨exchange, publisher, shutdown, limit, ?_, retraces⟩
      intro frames same
      cases same
      -- Nobody else requests a shutdown, so the limit is reached.
      rcases reason with requested | reached
      · cases shutdown.symm.trans requested
      · obtain ⟨most, member, below⟩ := reached
        rw [limit] at member
        have same := Nat.le_antisymm (heeds most member) below
        exact same ▸ member
  | publish stage ran =>
      rw [stage] at publisher shutdown heeds retraces
      refine ⟨exchange.tail (.offer _ publisher), trivial, shutdown, limit, heeds, ?_⟩
      intro frames same
      cases same
      exact (retraces _ rfl).publish ran rfl rfl
  | fail stage ran =>
      rw [stage] at publisher shutdown
      exact ⟨exchange, publisher, shutdown, limit, nofun, nofun⟩
  | proceed stage =>
      refine ⟨exchange.tail (.proceed _), ?_, shutdown, limit, heeds, ?_⟩
      · rw [stage]
        trivial
      · intro frames counted
        simpa only [Retraces, Exchange.published_proceed] using retraces frames counted
  | count stage idle =>
      rw [stage] at shutdown heeds retraces
      exact ⟨exchange, idle, shutdown, limit, heeds, retraces⟩
  | request stage =>
      rw [stage] at publisher heeds retraces
      exact ⟨exchange, publisher, rfl, limit, heeds, retraces⟩
  | close stage =>
      rw [stage] at publisher shutdown heeds retraces
      exact ⟨exchange.tail (.close publisher), rfl, shutdown, limit, heeds, retraces⟩

/-- No step of the viewer changes it, but for what is received. -/
theorem Sourced.viewerStep {start : FrameSource} {before after : Showing}
    (sourced : Sourced start before) (step : ViewerStep before after)
    : Sourced start after := by
  obtain ⟨exchange, publisher, shutdown, limit, heeds, retraces⟩ := sourced
  cases step with
  | goOn | leave | join | fail =>
      exact ⟨exchange, publisher, shutdown, limit, heeds, retraces⟩
  | receive | collect =>
      exact ⟨exchange.tail (.receive _), publisher, shutdown, limit, heeds, retraces⟩

-----------------------------------------------------------------------------------------
-- The viewer
-----------------------------------------------------------------------------------------

end Showing

namespace LatestFrame

/-- The viewer after some frames. -/
def afterViewing (frames : List Frame) : LatestFrame :=
  frames.foldl (fun latest frame => (latest.view frame).1) .initial

theorem afterViewing_concat (frames : List Frame) (frame : Frame)
    : afterViewing (frames ++ [frame]) = ((afterViewing frames).view frame).1 := by
  rw [afterViewing, List.foldl_append]
  rfl

theorem frame_afterViewing (frames : List Frame)
    : (afterViewing frames).frame = frames.getLast? := by
  rcases List.eq_nil_or_concat frames with rfl | ⟨_, _, rfl⟩
  · rfl
  · rw [List.concat_eq_append, afterViewing_concat, List.getLast?_concat]
    rfl

theorem viewed_afterViewing (frames : List Frame)
    : (afterViewing frames).viewed = frames.length := by
  induction frames using List.reverseRecOn with
  | nil => rfl
  | append_singleton frames frame ih =>
      rw [afterViewing_concat, List.length_append]
      exact congrArg (· + 1) ih

/-- Collecting is viewing what waits. -/
theorem collect_afterViewing (frames : List Frame) (mailbox : Mailbox Frame)
    : (afterViewing frames).collect mailbox
      = afterViewing (frames ++ mailbox.waiting.toList) := by
  cases waiting : mailbox.waiting with
  | none => cases isOpen : mailbox.publisherOpen <;> simp [collect, Mailbox.receive, *]
  | some frame => simp [collect, Mailbox.receive, waiting, afterViewing_concat]

/-- A viewer that only collects keeps what waits. -/
theorem frame_collect_initial (mailbox : Mailbox Frame)
    : (initial.collect mailbox).frame = mailbox.waiting := by
  have collected := collect_afterViewing [] mailbox
  change (collect (afterViewing []) mailbox).frame = _
  rw [collected, frame_afterViewing]
  cases mailbox.waiting <;> rfl

end LatestFrame

namespace Showing

namespace ViewerStage

/-- The frames of a run that has ended without a fault, as far as the viewer knows of it. -/
def joined? : ViewerStage → Option Nat
  | collecting frames | finished frames => some frames
  | checking | receiving | joining | failed _ => none

theorem joined?_afterTurn (turn : ViewerTurn Frame)
    : (afterTurn turn).joined? = none := by
  cases turn <;> rfl

end ViewerStage

/-- What holds of the viewer. -/
structure Attended (showing : Showing) : Prop where
  /-- It has viewed what it has received. -/
  latest : showing.latest = .afterViewing showing.exchange.received
  joined : ∀ frames ∈ showing.viewer.joined?, showing.source = .gone (.ok frames)
  collected
    : ∀ frames, showing.viewer = .finished frames → showing.exchange.mailbox.waiting = none

theorem attended_start (machine : Machine) (maxFrames : Option Nat)
    : (start machine maxFrames).Attended where
  latest := rfl
  joined := nofun
  collected := nofun

/-- What is received is viewed. -/
theorem Attended.latest_receive {showing : Showing} (attended : showing.Attended)
    : showing.latest.collect showing.exchange.mailbox
      = .afterViewing showing.exchange.receive.received := by
  rw [attended.latest, LatestFrame.collect_afterViewing, Exchange.receive, Mailbox.item?_receive]

/-- Every step of the viewer keeps it, by cases of the step. -/
theorem Attended.viewerStep {before after : Showing} (attended : before.Attended)
    (step : ViewerStep before after)
    : after.Attended := by
  cases step with
  | goOn | leave | fail => exact ⟨attended.latest, nofun, nofun⟩
  | receive =>
      refine ⟨attended.latest_receive, ?_, fun _ _ => Mailbox.waiting_receive _⟩
      intro frames member
      rw [ViewerStage.joined?_afterTurn] at member
      cases member
  | join _ gone =>
      refine ⟨attended.latest, ?_, nofun⟩
      intro frames same
      cases same
      exact gone
  | collect stage =>
      refine ⟨attended.latest_receive, ?_, fun _ _ => Mailbox.waiting_receive _⟩
      intro frames same
      cases same
      exact attended.joined _ (by rw [stage]; rfl)

/-- The side that runs the machine leaves the viewer alone, and takes no step once it is gone. -/
theorem SourceStep.besideViewer {before after : Showing} (step : SourceStep before after)
    : after.viewer = before.viewer
      ∧ after.latest = before.latest
      ∧ after.exchange.received = before.exchange.received
      ∧ ∀ result, before.source ≠ .gone result := by
  cases step with
  | proceed stage => exact ⟨rfl, rfl, Exchange.received_proceed _, by simp [stage]⟩
  | goOn stage | leave stage | publish stage | fail stage | count stage | request stage
  | close stage => exact ⟨rfl, rfl, rfl, by simp [stage]⟩

/-- So it keeps what holds of the viewer: one that knows of the end does not see a step any more. -/
theorem Attended.sourceStep {before after : Showing} (attended : before.Attended)
    (step : SourceStep before after)
    : after.Attended := by
  obtain ⟨viewer, latest, received, notGone⟩ := step.besideViewer
  have unaware : after.viewer.joined? = none := by
    cases known : before.viewer.joined? with
    | none => rw [viewer, known]
    | some frames => exact absurd (attended.joined frames known) (notGone _)
  constructor
  case latest => rw [latest, received, attended.latest]
  case joined => exact fun _ member => nomatch unaware.symm.trans member
  case collected =>
    intro frames finished
    rw [finished] at unaware
    cases unaware

/-- What holds of both sides after any steps, by induction on them. -/
theorem invariants_of_leads {machine : Machine} {maxFrames : Option Nat} {showing : Showing}
    (run : (start machine maxFrames).Leads showing)
    : Sourced (alone machine maxFrames) showing ∧ showing.Attended := by
  induction run with
  | refl => exact ⟨sourced_start machine maxFrames, attended_start machine maxFrames⟩
  | tail _ step ih =>
      obtain ⟨sourced, attended⟩ := ih
      cases step with
      | source step => exact ⟨sourced.sourceStep step, attended.sourceStep step⟩
      | viewer step => exact ⟨sourced.viewerStep step, attended.viewerStep step⟩

-----------------------------------------------------------------------------------------
-- One side after the other
-----------------------------------------------------------------------------------------

/-- The source stands where a run by itself stands, and the viewer has not seen the end. -/
structure Mirrors (showing : Showing) (source : FrameSource) (frames limit : Nat)
    (latest : LatestFrame) : Prop where
  stage : showing.source = .checking frames
  limit : showing.maxFrames = some limit
  quiet : showing.shutdown = false
  idle : showing.exchange.publisher = .idle
  machine : showing.machine = source.machine
  mailbox : showing.exchange.mailbox = source.mailbox
  viewer : showing.viewer = .checking
  latest : showing.latest = latest

theorem mirrors_start (machine : Machine) (limit : Nat)
    : (start machine (some limit)).Mirrors (alone machine (some limit)) 0 limit .initial :=
  ⟨rfl, rfl, rfl, rfl, rfl, rfl, rfl, rfl⟩

/-- A frame published by the run is published by steps of the source. -/
theorem Mirrors.publish {showing : Showing} {source next : FrameSource} {frames limit : Nat}
    {latest : LatestFrame} (mirrors : showing.Mirrors source frames limit latest)
    (below : frames < limit) (ran : FrameSource.publishFrame source = .ok () next)
    : ∃ later, showing.Leads later ∧ later.Mirrors next (frames + 1) limit latest := by
  obtain ⟨machine, advanced, -⟩ := FrameSource.publishFrame_ok ran
  cases (FrameSource.publishFrame_of_ok advanced).symm.trans ran
  have advanced : Machine.advanceFrame showing.machine = .ok () machine :=
    mirrors.machine ▸ advanced
  have more : ∀ most ∈ showing.maxFrames, frames < most := by
    intro most member
    cases mirrors.limit.symm.trans member
    exact below
  have begun : showing.Leads { showing with source := .running frames } :=
    .single (.source (.goOn mirrors.stage mirrors.quiet more))
  have offered := begun.tail (.source (.publish rfl advanced))
  have proceeded := (offered.tail (.source (.proceed rfl))).tail (.source (.proceed rfl))
  have idle := showing.exchange.publisher_proceed_proceed machine.acknowledgeFrame.completedFrame
  exact ⟨_, proceeded.tail (.source (.count rfl idle)),
    { mirrors with
      stage := rfl
      idle := idle
      machine := rfl
      mailbox := by rw [Exchange.publish_eq_proceed, mirrors.mailbox] }⟩

/-- So is any number of frames, by induction on them. -/
theorem Mirrors.runFrames {showing : Showing} {source after : FrameSource}
    {frames left limit count : Nat} {latest : LatestFrame}
    (mirrors : showing.Mirrors source frames limit latest) (running : source.shutdown = false)
    (within : frames + left = limit)
    (ran : FrameSource.runFrames left frames source = .ok count after)
    : count = limit ∧ ∃ later, showing.Leads later ∧ later.Mirrors after limit limit latest := by
  induction left generalizing showing source frames with
  | zero =>
      cases ran
      cases within
      exact ⟨rfl, showing, .refl, mirrors⟩
  | succ left ih =>
      rw [FrameSource.runFrames_succ running] at ran
      obtain ⟨_, next, first, rest⟩ := Act.ok_of_bind ran
      obtain ⟨_, -, -, -, still⟩ := FrameSource.publishFrame_ok first
      obtain ⟨middle, published, mirrored⟩ := mirrors.publish (by omega) first
      obtain ⟨counted, later, further, reached⟩ :=
        ih mirrored (still.trans running) (by omega) rest
      exact ⟨counted, later, published.trans further, reached⟩

/-- In between the viewer may take the frame that waits. -/
theorem Mirrors.view {showing : Showing} {source : FrameSource} {frames limit : Nat}
    {latest : LatestFrame} (mirrors : showing.Mirrors source frames limit latest) {frame : Frame}
    (waiting : source.mailbox.waiting = some frame)
    : ∃ later,
        showing.Leads later
        ∧ later.Mirrors { source with mailbox := source.mailbox.receive.1 } frames limit
          (latest.view frame).1 := by
  have looked : showing.Leads { showing with viewer := .receiving } :=
    .single (.viewer (.goOn mirrors.viewer mirrors.quiet))
  refine ⟨_, looked.tail (.viewer (.receive rfl)),
    { mirrors with
      mailbox := congrArg (·.receive.1) mirrors.mailbox
      viewer := ?_
      latest := ?_ }⟩
  · simp [mirrors.mailbox, Mailbox.turn, Mailbox.receive, waiting, ViewerStage.afterTurn]
  · simp [mirrors.mailbox, mirrors.latest, LatestFrame.collect, Mailbox.receive, waiting]

/-- At the limit the source requests the shutdown and is gone, and the viewer collects the frame
that waits.
-/
theorem Mirrors.finish {showing : Showing} {source : FrameSource} {limit : Nat}
    {latest : LatestFrame} (mirrors : showing.Mirrors source limit limit latest)
    : ∃ later,
        showing.Leads later
        ∧ later.viewer = .finished limit
        ∧ later.latest = latest.collect source.mailbox.close := by
  have ended : showing.Leads { showing with source := .ended (.ok limit) } :=
    .single (.source (.leave mirrors.stage (.inr ⟨limit, mirrors.limit, Nat.le_refl _⟩)))
  have gone := (ended.tail (.source (.request rfl))).tail (.source (.close rfl))
  have joined := (gone.tail (.viewer (.leave mirrors.viewer rfl))).tail (.viewer (.join rfl rfl))
  refine ⟨_, joined.tail (.viewer (.collect rfl)), rfl, ?_⟩
  change showing.latest.collect showing.exchange.mailbox.close = _
  rw [mirrors.latest, mirrors.mailbox]

end Showing

namespace Playback

/-- A run with nobody beside it keeps the frame that waits when its source ends. -/
theorem ofSource_of_ok {source after : FrameSource} {frames : Nat}
    (ran : FrameSource.run source = .ok frames after)
    : ofSource source
      = .ok { frames, latest := LatestFrame.initial.collect after.mailbox.close } := by
  unfold ofSource
  rw [show FrameSource.run.run source = .ok frames after from ran]
  rfl

/-- Such a run ends with its source. -/
theorem ofSource_ok {source : FrameSource} {playback : Playback}
    (played : ofSource source = .ok playback)
    : ∃ after,
        FrameSource.run source = .ok playback.frames after
        ∧ playback.latest = LatestFrame.initial.collect after.mailbox.close := by
  unfold ofSource at played
  split at played
  · cases played
  · cases played
    exact ⟨_, ‹_›, rfl⟩

end Playback

namespace Showing

/-- A run with a limit and with nobody beside it is one order of the steps: the viewer waits for
the end and collects what is there.
-/
theorem leads_of_playback {machine : Machine} {limit : Nat} {playback : Playback}
    (played : Playback.ofSource (alone machine (some limit)) = .ok playback)
    : playback.frames = limit
      ∧ ∃ showing,
          (start machine (some limit)).Leads showing
          ∧ showing.viewer = .finished limit
          ∧ showing.latest = playback.latest := by
  obtain ⟨after, ran, latest⟩ := Playback.ofSource_ok played
  rw [FrameSource.run_of_limited rfl] at ran
  obtain ⟨counted, middle, published, reached⟩ :=
    (mirrors_start machine limit).runFrames rfl (Nat.zero_add limit) ran
  obtain ⟨later, finishing, finished, collected⟩ := reached.finish
  exact ⟨counted, later, published.trans finishing, finished, collected.trans latest.symm⟩

-----------------------------------------------------------------------------------------
-- The frame that is left
-----------------------------------------------------------------------------------------

/-- The newest frame is the one that is left. Whatever the order of the steps of the two sides, when
the run ends with a number of frames, so many were published, those of a run with nobody beside it;
the viewer has viewed some of them, each at most once and in the order of their publication; and
the frame that it keeps is the last one published, if there is one. It is the one that a run with
nobody beside it keeps.
-/
theorem newest_frame_shown {machine : Machine} {maxFrames : Option Nat} {showing : Showing}
    {frames : Nat} (run : (start machine maxFrames).Leads showing)
    (finished : showing.viewer = .finished frames)
    : showing.latest.frame = showing.exchange.published.getLast?
      ∧ (showing.latest.frame = none ↔ frames = 0)
      ∧ showing.exchange.published = (alone machine maxFrames).publishedFrames frames
      ∧ showing.exchange.published.length = frames
      ∧ showing.latest = .afterViewing showing.exchange.received
      ∧ showing.exchange.received.Sublist showing.exchange.published
      ∧ showing.latest.viewed = showing.exchange.received.length
      ∧ showing.latest.viewed ≤ frames
      ∧ ∃ playback,
          Playback.ofSource (alone machine maxFrames) = .ok playback
          ∧ playback.frames = frames
          ∧ playback.latest.frame = showing.latest.frame := by
  obtain ⟨sourced, attended⟩ := invariants_of_leads run
  have gone : showing.source = .gone (.ok frames) := attended.joined frames (by rw [finished]; rfl)
  obtain ⟨counted, same, source, ran, -, -, waits⟩ :=
    sourced.retraces frames (by rw [gone]; rfl)
  have publisher := sourced.publisher
  have limited := sourced.heeds
  rw [gone] at publisher limited
  have collected := attended.collected frames finished
  have sound := Exchange.sound_of_leads sourced.exchange
  have pending : showing.exchange.pending = [] := by
    rw [Exchange.pending, collected, publisher]
    rfl
  have newest : showing.latest.frame = showing.exchange.published.getLast? := by
    have newest := sound.newest
    rw [pending, List.append_nil] at newest
    rw [attended.latest, LatestFrame.frame_afterViewing, newest]
  have ordered : showing.exchange.received.Sublist showing.exchange.published := by
    obtain ⟨delivered, added, received, published, ordered⟩ :=
      Exchange.delivers_of_leads sourced.exchange
    rw [received, published]
    exact (List.sublist_append_left _ _).trans ordered
  have viewed : showing.latest.viewed = showing.exchange.received.length := by
    rw [attended.latest, LatestFrame.viewed_afterViewing]
  have none_iff : showing.latest.frame = none ↔ frames = 0 := by
    rw [newest, List.getLast?_eq_none_iff, ← counted, List.length_eq_zero_iff]
  have complete : FrameSource.run (alone machine maxFrames) = .ok frames source := by
    rw [FrameSource.run_of_limited (limited frames rfl)]
    exact ran
  refine ⟨newest, none_iff, same.symm, counted, attended.latest, ordered, viewed, ?_,
    _, Playback.ofSource_of_ok complete, rfl, ?_⟩
  · rw [viewed, ← counted]
    exact ordered.length_le
  · rw [newest, ← waits]
    exact LatestFrame.frame_collect_initial _

/-- Two frames of a machine that executes nothing but a halt instruction. The viewer takes the first
one before the second one is published, and the second one after the end.
-/
theorem newest_frame_shown_halting
    : ∃ showing,
        (start (Machine.new.insert .halting) (some 2)).Leads showing
        ∧ showing.viewer = .finished 2
        ∧ showing.latest.viewed = 2
        ∧ showing.exchange.received = showing.exchange.published
        ∧ showing.latest.frame = showing.exchange.published.getLast?
        ∧ showing.latest.frame ≠ none := by
  have dozes : (alone (Machine.new.insert .halting) (some 2)).machine.Dozes :=
    Machine.dozes_halting
  obtain ⟨next, first, dozing, -⟩ := FrameSource.publishFrame_of_dozes dozes
  obtain ⟨_, -, -, firstWaits, -⟩ := FrameSource.publishFrame_ok first
  obtain ⟨_, published, mirrors⟩ := (mirrors_start _ 2).publish (by decide) first
  obtain ⟨_, taken, mirrors⟩ := mirrors.view firstWaits
  let emptied : FrameSource := { next with mailbox := next.mailbox.receive.1 }
  have dozing : emptied.machine.Dozes := dozing
  obtain ⟨last, second, -⟩ := FrameSource.publishFrame_of_dozes dozing
  obtain ⟨_, -, -, lastWaits, -⟩ := FrameSource.publishFrame_ok second
  obtain ⟨_, publishedLast, mirrors⟩ := mirrors.publish (by decide) second
  obtain ⟨showing, ending, finished, latest⟩ := mirrors.finish
  have run := ((published.trans taken).trans publishedLast).trans ending
  obtain ⟨newest, none_iff, -, counted, -, ordered, viewed, -⟩ := newest_frame_shown run finished
  have both : showing.latest.viewed = 2 := by
    simp [latest, LatestFrame.collect, Mailbox.receive, Mailbox.close, lastWaits,
      LatestFrame.view, LatestFrame.initial]
  have whole : showing.exchange.received = showing.exchange.published :=
    ordered.eq_of_length (by rw [← viewed, both, counted])
  have shown : showing.latest.frame ≠ none := by
    rw [ne_eq, none_iff]
    decide
  exact ⟨showing, run, finished, both, whole, newest, shown⟩

end Showing

end Handheld
