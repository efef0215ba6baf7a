import Handheld.Proofs.Video.Consistency
import Mathlib.Data.List.Induction

/-! What the video unit goes through from power on. Its course leads through the states that its
operations pass, the ones within a run included, and keeps a history of the lines that were scanned
and drawn, each with the unit as it was then.
-/

namespace Handheld.Video

-----------------------------------------------------------------------------------------
-- Events
-----------------------------------------------------------------------------------------

/-- Something that happens to the lines of the unit. -/
inductive LineEvent where
  /-- The unit scans object memory for its line. -/
  | scanned (video : Video)
  /-- The unit draws its line. -/
  | drawn (video : Video)
  /-- The line register goes back to the first line. -/
  | restarted

/-- An operation starts over with the first line: start-up does, switching the display on or off
does, and time does while the display is off.
-/
def startsOver (video : Video) : Action → Bool
  | .boot => true
  | .write address value => address == 0xFF40 && switchesOn value != video.lcdOn
  | .advance _ _ => !video.lcdOn
  | _ => false

/-- An operation lets no time pass in the unit, or does so with the display off. -/
def NoRun (video : Video) (action : Action) : Prop :=
  ∀ clocks requests, action = .advance clocks requests → video.lcdOn = false

/-- What happens in an operation that is no run. -/
def eventsOf (video : Video) (action : Action) : List LineEvent :=
  if video.startsOver action then [.restarted] else []

/-- What happens as the unit leaves its mode. -/
def eventsOfLeaving (video : Video) : List LineEvent :=
  match video.mode with
  | .oamScan => [.scanned video]
  | .transfer => [.drawn video]
  | .hblank => []
  | .vblank => if video.line = 153 then [.restarted] else []

-----------------------------------------------------------------------------------------
-- Courses
-----------------------------------------------------------------------------------------

/-- In the course of some operations from power on, the last of which may still be under way, the
unit comes to a state. The history has the latest event first.
-/
inductive Course : List Action → List LineEvent → Video → Prop where
  | powerOn : Course [] [] initial
  | perform {actions : List Action} {history : List LineEvent} {video : Video} {action : Action}
    : Course actions history video
      → video.clock < video.mode.duration
      → video.NoRun action
      → Course (actions ++ [action]) (video.eventsOf action ++ history) (video.perform action)
  | begin {actions : List Action} {history : List LineEvent} {video : Video} {clocks : Nat}
      {requests : UInt8}
    : Course actions history video
      → video.clock < video.mode.duration
      → video.lcdOn
      → Course (actions ++ [.advance clocks requests]) history (video.begin clocks requests).video
  | leave {actions : List Action} {history : List LineEvent} {sweep : Sweep}
    : Course actions history sweep.video
      → sweep.video.mode.duration ≤ sweep.video.clock
      → Course actions (sweep.spend.video.eventsOfLeaving ++ history) sweep.spend.leaveMode.video

variable {actions : List Action} {history : List LineEvent} {video : Video}

/-- With the display off, the unit stands at the start of a frame. -/
def Parks (video : Video) : Prop :=
  video.lcdOn = false
  → video.mode = .hblank ∧ video.line = 0 ∧ video.clock = 0 ∧ video.windowLine = 0

/-- A unit whose mode is over has its display on. -/
theorem Parks.on_of_due (parks : video.Parks) (due : video.mode.duration ≤ video.clock)
    : video.lcdOn := by
  by_contra off
  obtain ⟨-, -, clock, -⟩ := parks ((Bool.not_eq_true _).mp off)
  have lasts := video.mode.duration_pos
  omega

/-- The course leads through orderly states, by induction on it. -/
theorem Course.orderly (course : Course actions history video)
    : video.Orderly ∧ video.Parks := by
  induction course with
  | powerOn => exact ⟨consistent_initial.toOrderly, consistent_initial.off⟩
  | @perform _ _ _ action _ rests _ ih =>
      have before : Consistent _ := ⟨ih.1, rests, ih.2⟩
      have after := before.perform action
      exact ⟨after.toOrderly, after.off⟩
  | begin _ _ on ih => exact ⟨ih.1.begin _ _, fun off => by cases on.symm.trans off⟩
  | @leave _ _ sweep _ due ih =>
      have on := ih.2.on_of_due due
      obtain ⟨displayed, orderly⟩ := ih.1.passes on (.leave .start due)
      exact ⟨orderly, fun off => by cases displayed.symm.trans off⟩

/-- While a mode is over its display is on. -/
theorem Course.on_of_due (course : Course actions history video)
    (due : video.mode.duration ≤ video.clock)
    : video.lcdOn :=
  course.orderly.2.on_of_due due

-----------------------------------------------------------------------------------------
-- Operations that are no runs
-----------------------------------------------------------------------------------------

/-- The unit has started over: nothing is transferred, and the window has no rows. -/
structure AtStart (video : Video) : Prop where
  mode : video.mode ≠ .transfer
  window : video.windowLine = 0

/-- The unit goes on with its line, with the objects found for it and the row of the window. -/
structure KeepsLine (before after : Video) : Prop where
  mode : after.mode = before.mode
  line : after.line = before.line
  sprites : after.sprites = before.sprites
  window : after.windowLine = before.windowLine

/-- In the blank of a line or in its scan nothing is transferred. -/
theorem atStart_of_mode (mode : video.mode = .hblank ∨ video.mode = .oamScan)
    (window : video.windowLine = 0)
    : video.AtStart where
  mode transfers := by
    rcases mode with blank | scan
    · cases blank.symm.trans transfers
    · cases scan.symm.trans transfers
  window := window

/-- Switching the display off or on starts over, by cases of the display before and after it. While
it is off the window has no rows.
-/
theorem writeControl_cases (parks : video.Parks) (value : UInt8)
    : (switchesOn value != video.lcdOn) = true ∧ (video.writeControl value).AtStart
      ∨ (switchesOn value != video.lcdOn) = false
        ∧ video.KeepsLine (video.writeControl value) := by
  cases wasOn : video.lcdOn <;> cases isOn : switchesOn value
  case false.true =>
    rw [video.writeControl_of_on wasOn isOn]
    exact .inl ⟨rfl, atStart_of_mode (.inr rfl) (parks wasOn).2.2.2⟩
  case true.false =>
    rw [video.writeControl_of_off wasOn isOn]
    exact .inl ⟨rfl, atStart_of_mode (.inl rfl) rfl⟩
  all_goals
    rw [video.writeControl_of_same (isOn.trans wasOn.symm)]
    exact .inr ⟨rfl, rfl, rfl, rfl, rfl⟩

/-- An operation that is no run starts over or goes on with the line, by cases of the operation. -/
theorem perform_cases (parks : video.Parks) {action : Action} (still : video.NoRun action)
    : video.startsOver action = true ∧ (video.perform action).AtStart
      ∨ video.startsOver action = false ∧ video.KeepsLine (video.perform action) := by
  cases action with
  | boot => exact .inl ⟨rfl, atStart_of_mode (.inr rfl) rfl⟩
  | storeVram | storeOam | replaceObjects | acknowledge => exact .inr ⟨rfl, rfl, rfl, rfl, rfl⟩
  | write address value =>
      simp only [Video.perform, writeAt]
      by_cases control : address = 0xFF40
      · rw [Register.at?_eq_control_iff.mpr control, control]
        exact writeControl_cases parks value
      · have goesOn : video.startsOver (.write address value) = false := by
          rw [startsOver, beq_false_of_ne control, Bool.false_and]
        have other : Register.at? address ≠ some .control :=
          fun answers => control (Register.at?_eq_control_iff.mp answers)
        refine .inr ⟨goesOn, ?_⟩
        cases answers : Register.at? address with
        | none => exact ⟨rfl, rfl, rfl, rfl⟩
        | some register =>
            rw [answers] at other
            cases register with
            | control => exact absurd rfl other
            | _ => exact ⟨rfl, rfl, rfl, rfl⟩
  | advance clocks requests =>
      have off := still clocks requests rfl
      have restarts : video.startsOver (.advance clocks requests) = true := by
        rw [startsOver, off, Bool.not_false]
      rw [Video.perform, video.advance_of_off off]
      exact .inl ⟨restarts, atStart_of_mode (.inl rfl) rfl⟩

-----------------------------------------------------------------------------------------
-- The states of a run
-----------------------------------------------------------------------------------------

/-- The course goes on through the states that a run passes, by induction on the way. -/
theorem Course.passes {start sweep : Sweep} (course : Course actions history start.video)
    (passed : start.Passes sweep)
    : ∃ later, Course actions later sweep.video := by
  induction passed with
  | start => exact ⟨history, course⟩
  | leave _ due ih =>
      obtain ⟨later, before⟩ := ih
      exact ⟨_, before.leave due⟩

/-- A run with the display on is part of the course. -/
theorem Course.run {sweep : Sweep} {clocks : Nat} {requests : UInt8}
    (course : Course actions history video) (rests : video.clock < video.mode.duration)
    (on : video.lcdOn) (passed : (video.begin clocks requests).Passes sweep)
    : ∃ later, Course (actions ++ [.advance clocks requests]) later sweep.video :=
  (course.begin rests on).passes passed

/-- Whatever operations follow on power on, they have a course, by induction on them. -/
theorem course_performAll (actions : List Action)
    : ∃ history, Course actions history (initial.performAll actions) := by
  induction actions using List.reverseRecOn with
  | nil => exact ⟨[], .powerOn⟩
  | append_singleton earlier action ih =>
      obtain ⟨history, course⟩ := ih
      have rests := (consistent_performAll earlier).clock
      rw [performAll_append, performAll_cons, performAll_nil]
      by_cases runs
        : ∃ clocks requests,
          action = .advance clocks requests ∧ (initial.performAll earlier).lcdOn
      · obtain ⟨clocks, requests, rfl, on⟩ := runs
        simp only [Video.perform]
        rw [advance_of_on _ on]
        exact course.run rests on (Sweep.passes_settle _)
      · refine ⟨_, course.perform rests ?_⟩
        intro clocks requests same
        by_contra on
        exact runs ⟨clocks, requests, same, (Bool.not_eq_false _).mp on⟩

-----------------------------------------------------------------------------------------
-- Scans
-----------------------------------------------------------------------------------------

/-- The unit as it scans its line. -/
def LineEvent.scan? : LineEvent → Option Video
  | .scanned video => some video
  | .drawn _ | .restarted => none

/-- The unit as it last scanned a line. -/
def lastScan? (history : List LineEvent) : Option Video :=
  history.findSome? LineEvent.scan?

/-- The unit has the objects that it last found, and they were found for its line. -/
def Scanned (video : Video) (history : List LineEvent) : Prop :=
  ∃ scanned,
    lastScan? history = some scanned
    ∧ scanned.line = video.line
    ∧ video.sprites = scanned.scanObjects.sprites

/-- Only the scan gives way to the transfer. -/
theorem Leaving.scans {before after : Video} (leaving : before.Leaving after)
    (transfers : after.mode = .transfer)
    : before.mode = .oamScan := by
  cases leaving with
  | scan mode => exact mode
  | nextBlank mode _ => cases mode.symm.trans transfers
  | draw | complete | nextLine | restart => cases transfers

/-- While a line is transferred the unit has the objects that were found for it, by induction on the
course.
-/
theorem Course.scanned (course : Course actions history video) (transfers : video.mode = .transfer)
    : video.Scanned history := by
  induction course with
  | powerOn => cases transfers
  | perform before rests still ih =>
      rcases perform_cases before.orderly.2 still with ⟨-, starts⟩ | ⟨goesOn, keeps⟩
      · exact absurd transfers starts.mode
      · obtain ⟨scanned, last, found, latched⟩ := ih (keeps.mode.symm.trans transfers)
        rw [eventsOf, goesOn]
        exact ⟨scanned, last, found.trans keeps.line.symm, keeps.sprites.trans latched⟩
  | begin _ _ _ ih => exact ih transfers
  | @leave _ _ sweep before due ih =>
      have mode := sweep.spend.leaving.scans transfers
      rw [sweep.spend.leaveMode_oamScan mode, eventsOfLeaving, mode]
      exact ⟨sweep.spend.video, rfl, rfl, rfl⟩

-----------------------------------------------------------------------------------------
-- Lines that are drawn
-----------------------------------------------------------------------------------------

/-- In a run after some operations, the transfer of a line is over: the line will be drawn as the
mode is left.
-/
structure TransferEnds (actions : List Action) (clocks : Nat) (requests : UInt8) (sweep : Sweep)
    : Prop where
  on : (initial.performAll actions).lcdOn
  passed : ((initial.performAll actions).begin clocks requests).Passes sweep
  mode : sweep.video.mode = .transfer
  due : sweep.video.mode.duration ≤ sweep.video.clock

/-- Every line that is drawn is in a course. -/
theorem TransferEnds.course {clocks : Nat} {requests : UInt8} {sweep : Sweep}
    (ends : TransferEnds actions clocks requests sweep)
    : ∃ history, Course (actions ++ [.advance clocks requests]) history sweep.video := by
  obtain ⟨history, course⟩ := course_performAll actions
  exact course.run (consistent_performAll actions).clock ends.on ends.passed

/-- Leaving it draws the row of the line, and no other. -/
theorem TransferEnds.draws {clocks : Nat} {requests : UInt8} {sweep : Sweep}
    (ends : TransferEnds actions clocks requests sweep)
    : (∀ x : Nat,
        sweep.spend.leaveMode.video.drawing.pixel? x sweep.video.line.toNat
        = (sweep.video.lineRow sweep.video.backdrop.1)[x]?)
      ∧ ∀ row : Nat,
          row ≠ sweep.video.line.toNat
          → sweep.spend.leaveMode.video.drawing[row]? = sweep.video.drawing[row]? := by
  obtain ⟨history, course⟩ := ends.course
  have on : sweep.spend.video.lcdOn := course.on_of_due ends.due
  have visible : sweep.video.line.toNat < screenHeight :=
    course.orderly.1.onScreen (by simp [ends.mode])
  have drawn : sweep.spend.leaveMode.video.drawing
      = sweep.video.drawing.set sweep.video.line.toNat
          (sweep.video.lineRow sweep.video.backdrop.1) visible := by
    rw [sweep.spend.leaveMode_transfer ends.mode, Sweep.video_enter,
      sweep.spend.video.drawLine_of_onScreen on visible]
    rfl
  refine ⟨fun x => ?_, fun row other => ?_⟩
  · rw [drawn, Picture.pixel?, Vector.getElem?_set_self, Option.bind_some]
  · rw [drawn, Vector.getElem?_set_ne _ other.symm]

end Handheld.Video
