import Handheld.Proofs.Interrupt
import Handheld.Proofs.Video.Sweep

/-! The video unit over a stretch of time. A run that is given more clocks, or begins with more
interrupts requested, passes the same modes and then goes on, so that running for one stretch and
then for another is running for both at once.
-/

namespace Handheld.Video

namespace Sweep

/-- The sweep with more clocks at hand and more requested, as if a picture had been completed. -/
def ahead (sweep : Sweep) (clocks : Nat) (requests : UInt8) (frameDone : Bool) : Sweep :=
  { video := { sweep.video with clock := sweep.video.clock + clocks }
    requests := sweep.requests ||| requests
    frameDone := sweep.frameDone || frameDone }

variable (sweep : Sweep) (clocks : Nat) (requests : UInt8) (frameDone : Bool)

-----------------------------------------------------------------------------------------
-- Leaving a mode with time to spare
-----------------------------------------------------------------------------------------

theorem requestStatus_ahead (enabled : Bool)
    : (sweep.ahead clocks requests frameDone).requestStatus enabled
      = (sweep.requestStatus enabled).ahead clocks requests frameDone := by
  simp only [requestStatus, ahead, Interrupt.raiseIf_or]

theorem enter_ahead (mode : Mode)
    : (sweep.ahead clocks requests frameDone).enter mode
      = (sweep.enter mode).ahead clocks requests frameDone :=
  requestStatus_ahead { sweep with video := { sweep.video with mode } } clocks requests frameDone _

theorem moveTo_ahead (line : UInt8)
    : (sweep.ahead clocks requests frameDone).moveTo line
      = (sweep.moveTo line).ahead clocks requests frameDone :=
  requestStatus_ahead
    { sweep with
      video := { sweep.video with line, coincidence := line == sweep.video.lineCompare } }
    clocks requests frameDone _

theorem completeFrame_ahead
    : (sweep.ahead clocks requests frameDone).completeFrame
      = sweep.completeFrame.ahead clocks requests frameDone := by
  simp only [completeFrame, ahead, Bool.true_or, UInt8.or_assoc, UInt8.or_comm requests]

end Sweep

/-- A line is drawn without regard to the clocks at hand. -/
theorem drawLine_clock (video : Video) (clock : Nat)
    : { video with clock }.drawLine = { video.drawLine with clock } := by
  unfold drawLine
  simp only [lcdOn]
  split
  · split
    · rfl
    · rfl
  · rfl

namespace Sweep

variable (sweep : Sweep) (clocks : Nat) (requests : UInt8) (frameDone : Bool)

/-- A mode is left alike with more clocks at hand, by cases of the mode. -/
theorem leaveMode_ahead
    : (sweep.ahead clocks requests frameDone).leaveMode
      = sweep.leaveMode.ahead clocks requests frameDone := by
  cases mode : sweep.video.mode with
  | oamScan =>
      rw [sweep.leaveMode_oamScan mode,
        leaveMode_oamScan (sweep.ahead clocks requests frameDone) mode, ← enter_ahead]
      rfl
  | transfer =>
      rw [sweep.leaveMode_transfer mode,
        leaveMode_transfer (sweep.ahead clocks requests frameDone) mode, ← enter_ahead]
      simp only [ahead, drawLine_clock, clock_drawLine]
  | hblank =>
      by_cases last : sweep.video.line + 1 = 144
      · rw [sweep.leaveMode_hblank_last mode last,
        leaveMode_hblank_last (sweep.ahead clocks requests frameDone) mode last, ← enter_ahead,
          ← completeFrame_ahead, ← moveTo_ahead]
        rfl
      · rw [sweep.leaveMode_hblank_next mode last,
        leaveMode_hblank_next (sweep.ahead clocks requests frameDone) mode last, ← enter_ahead,
          ← moveTo_ahead]
        rfl
  | vblank =>
      by_cases last : sweep.video.line = 153
      · rw [sweep.leaveMode_vblank_last mode last,
        leaveMode_vblank_last (sweep.ahead clocks requests frameDone) mode last, ← enter_ahead,
          ← moveTo_ahead]
        rfl
      · rw [sweep.leaveMode_vblank_next mode last,
        leaveMode_vblank_next (sweep.ahead clocks requests frameDone) mode last, ← moveTo_ahead]
        rfl

/-- Clocks that were due before are spent alike. -/
theorem spend_ahead {sweep : Sweep} (due : sweep.video.mode.duration ≤ sweep.video.clock)
    : (sweep.ahead clocks requests frameDone).spend
      = sweep.spend.ahead clocks requests frameDone := by
  simp only [spend, ahead, Nat.sub_add_comm due]

/-- A run with more clocks settles where it goes on from where the shorter one settles, by induction
on the shorter one.
-/
theorem settle_ahead
    : (sweep.ahead clocks requests frameDone).settle
      = (sweep.settle.ahead clocks requests frameDone).settle := by
  fun_induction settle sweep with
  | case1 sweep settled => rfl
  | case2 sweep unsettled ih =>
      have due := Nat.le_of_not_lt unsettled
      have later : (sweep.ahead clocks requests frameDone).video.mode.duration
          ≤ (sweep.ahead clocks requests frameDone).video.clock :=
        Nat.le_add_right_of_le due
      rw [settle_of_due later, spend_ahead clocks requests frameDone due, leaveMode_ahead, ih]

/-- Without more clocks it settles at once. -/
theorem settle_beside
    : (sweep.ahead 0 requests frameDone).settle = sweep.settle.ahead 0 requests frameDone := by
  rw [settle_ahead]
  exact settle_of_clock_lt sweep.clock_settle

end Sweep

-----------------------------------------------------------------------------------------
-- Stretches
-----------------------------------------------------------------------------------------

/-- Running leaves the display on or off and touches no memory of the unit. -/
theorem kept_advance (video : Video) (clocks : Nat) (requests : UInt8)
    : (video.advance clocks requests).video.lcdOn = video.lcdOn
      ∧ (video.advance clocks requests).video.vram = video.vram
      ∧ (video.advance clocks requests).video.oam = video.oam := by
  cases on : video.lcdOn with
  | false =>
      rw [video.advance_of_off on]
      exact ⟨on, rfl, rfl⟩
  | true =>
      refine video.advance_preserves on clocks requests
        (fun sweep => sweep.video.lcdOn = true ∧ sweep.video.vram = video.vram
          ∧ sweep.video.oam = video.oam) ⟨on, rfl, rfl⟩ ?_
      intro state due kept
      have leaving := state.spend.leaving
      generalize state.spend.leaveMode.video = after at leaving
      cases leaving <;> exact kept

/-- What is requested beside makes no difference to a run. -/
theorem advance_or (video : Video) (clocks : Nat) (requests more : UInt8)
    : video.advance clocks (requests ||| more)
      = (video.advance clocks requests).ahead 0 more false := by
  cases on : video.lcdOn with
  | false =>
      rw [video.advance_of_off on, video.advance_of_off on]
      rfl
  | true =>
      rw [video.advance_of_on on, video.advance_of_on on, ← Sweep.settle_beside]
      rfl

/-- A run only adds to what is requested: it is a run without requests, with these beside it. -/
theorem requests_advance (video : Video) (clocks : Nat) (requests : UInt8)
    : (video.advance clocks requests).requests
      = requests ||| (video.advance clocks 0).requests := by
  have beside := video.advance_or clocks 0 requests
  rw [UInt8.zero_or] at beside
  rw [beside, UInt8.or_comm]
  rfl

/-- So a source that was requested stays requested. -/
theorem isIn_advance {source : Interrupt} (video : Video) (clocks : Nat) {requests : UInt8}
    (raised : source.isIn requests)
    : source.isIn (video.advance clocks requests).requests := by
  rw [requests_advance, Interrupt.isIn_or, raised, Bool.true_or]

section Raising

variable {property : UInt8 → Prop}
  (raises
    : ∀ (source : Interrupt) (condition : Bool) (requests : UInt8),
      (source = .vblank ∨ source = .lcdStatus)
      → property requests
      → property (source.raiseIf condition requests))

include raises

/-- Leaving a mode requests blanking or status interrupts at most, by cases of the mode: what holds
of the requests however these are raised holds after it.
-/
theorem Sweep.requests_leaveMode {sweep : Sweep} (holds : property sweep.requests)
    : property sweep.leaveMode.requests := by
  have entered {sweep : Sweep} (mode : Mode) (holds : property sweep.requests)
      : property (sweep.enter mode).requests :=
    raises .lcdStatus _ _ (.inr rfl) holds
  have moved (line : UInt8) : property (sweep.moveTo line).requests :=
    raises .lcdStatus _ _ (.inr rfl) holds
  have completed {sweep : Sweep} (holds : property sweep.requests)
      : property sweep.completeFrame.requests :=
    raises .vblank true _ (.inl rfl) holds
  cases mode : sweep.video.mode with
  | oamScan =>
      rw [sweep.leaveMode_oamScan mode]
      exact entered _ holds
  | transfer =>
      rw [sweep.leaveMode_transfer mode]
      exact entered _ holds
  | hblank =>
      by_cases last : sweep.video.line + 1 = 144
      · rw [sweep.leaveMode_hblank_last mode last]
        exact entered _ (completed (moved _))
      · rw [sweep.leaveMode_hblank_next mode last]
        exact entered _ (moved _)
  | vblank =>
      by_cases last : sweep.video.line = 153
      · rw [sweep.leaveMode_vblank_last mode last]
        exact entered _ (raises .lcdStatus _ _ (.inr rfl) holds)
      · rw [sweep.leaveMode_vblank_next mode last]
        exact moved _

/-- It holds after a run too, whether its display is on or off. -/
theorem requests_advance_preserves (video : Video) (clocks : Nat) {requests : UInt8}
    (holds : property requests)
    : property (video.advance clocks requests).requests := by
  cases on : video.lcdOn with
  | false =>
      rw [video.advance_of_off on]
      exact holds
  | true =>
      apply video.advance_preserves on clocks requests (fun sweep => property sweep.requests) holds
      intro state due before
      exact Sweep.requests_leaveMode raises before

end Raising

/-- In particular no other source is requested. -/
theorem isIn_advance_of_ne {source : Interrupt} (notVblank : source ≠ .vblank)
    (notStatus : source ≠ .lcdStatus) (video : Video) (clocks : Nat) (requests : UInt8)
    : source.isIn (video.advance clocks requests).requests = source.isIn requests := by
  have kept (other : Interrupt) (condition : Bool) (raised : UInt8)
      (which : other = .vblank ∨ other = .lcdStatus)
      (same : source.isIn raised = source.isIn requests)
      : source.isIn (other.raiseIf condition raised) = source.isIn requests := by
    have different : source ≠ other := by
      rcases which with vblank | status
      · rw [vblank]
        exact notVblank
      · rw [status]
        exact notStatus
    rw [Interrupt.isIn_raiseIf_of_ne different, same]
  exact requests_advance_preserves kept video clocks rfl

/-- Two stretches, one after the other, are one: the run over both passes where the first one
settles and goes on from there.
-/
theorem advance_add (video : Video) (first second : Nat) (requests : UInt8)
    : let reached := video.advance first requests
      video.advance (first + second) requests
        = (reached.video.advance second reached.requests).ahead 0 0 reached.frameDone := by
  intro reached
  have same : reached.video.lcdOn = video.lcdOn := (video.kept_advance first requests).1
  cases on : video.lcdOn with
  | false =>
      rw [on] at same
      have started : reached
          = { video := { video with mode := .hblank, line := 0, clock := 0, windowLine := 0 }
              requests
              frameDone := false } := video.advance_of_off on first requests
      rw [reached.video.advance_of_off same, video.advance_of_off on, started]
      simp only [Sweep.ahead, UInt8.or_zero, Nat.add_zero, Bool.or_false]
  | true =>
      rw [on] at same
      have settled : reached = (video.begin first requests).settle :=
        video.advance_of_on on first requests
      have whole : video.begin (first + second) requests
          = (video.begin first requests).ahead second 0 false := by
        simp only [begin, Sweep.ahead, Nat.add_assoc, UInt8.or_zero, Bool.or_false]
      have onward : reached.ahead second 0 false
          = (reached.video.begin second reached.requests).ahead 0 0 reached.frameDone := by
        simp only [begin, Sweep.ahead, Nat.add_zero, UInt8.or_zero, Bool.or_false, Bool.false_or]
      rw [reached.video.advance_of_on same, video.advance_of_on on, whole, Sweep.settle_ahead,
        ← settled, onward, Sweep.settle_beside]

/-- The sweep after more clocks. It keeps in mind whether a picture was completed before. -/
def Sweep.goOn (sweep : Sweep) (clocks : Nat) : Sweep :=
  let next := sweep.video.advance clocks sweep.requests
  { next with frameDone := sweep.frameDone || next.frameDone }

/-- To go on from a run is to run for longer. -/
theorem goOn_advance (video : Video) (first second : Nat) (requests : UInt8)
    : (video.advance first requests).goOn second = video.advance (first + second) requests := by
  rw [advance_add]
  simp only [Sweep.goOn, Sweep.ahead, UInt8.or_zero, Nat.add_zero, Bool.or_comm]

/-- However time is cut into stretches, the unit ends in the same state with the same requests. A
picture is completed in the whole time when one is completed in one of the stretches.
-/
theorem advance_in_stretches (video : Video) (first : Nat) (requests : UInt8)
    : (∀ second,
        let reached := video.advance first requests
        let final := reached.video.advance second reached.requests
        let whole := video.advance (first + second) requests
        whole.video = final.video
        ∧ whole.requests = final.requests
        ∧ (whole.frameDone ↔ reached.frameDone ∨ final.frameDone))
      ∧ ∀ stretches : List Nat,
          stretches.foldl Sweep.goOn (video.advance first requests)
            = video.advance (first + stretches.sum) requests := by
  constructor
  · intro second reached final whole
    have same : whole = reached.goOn second := (video.goOn_advance first second requests).symm
    rw [same]
    exact ⟨rfl, rfl, Bool.or_eq_true_iff⟩
  · intro stretches
    induction stretches generalizing first with
    | nil => rfl
    | cons second rest ih =>
        rw [List.foldl_cons, goOn_advance, ih, List.sum_cons, Nat.add_assoc]

end Handheld.Video
