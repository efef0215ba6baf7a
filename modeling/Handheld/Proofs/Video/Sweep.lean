import Handheld.Video.Timing

/-! The states that the video unit passes while it runs for some clocks. A run settles in one
of them, so what leaving a mode preserves, a run of any length preserves.
-/

namespace Handheld.Video

/-- A line above the last one of the frame is followed by the line with the next number. -/
theorem toNat_line_succ (line : UInt8) (above : line.toNat < 153)
    : (line + 1).toNat = line.toNat + 1 := by
  have one : (1 : UInt8).toNat = 1 := rfl
  rw [UInt8.toNat_add]
  omega

/-- Drawing a line changes the picture and perhaps the window's row, and nothing else. -/
theorem drawLine_eq (video : Video)
    : ∃ drawing windowLine, video.drawLine = { video with drawing, windowLine } := by
  unfold drawLine
  split
  · split
    · exact ⟨_, _, rfl⟩
    · exact ⟨video.drawing, video.windowLine, rfl⟩
  · exact ⟨video.drawing, video.windowLine, rfl⟩

namespace Sweep

-----------------------------------------------------------------------------------------
-- What each part of leaving a mode does to the unit
-----------------------------------------------------------------------------------------

@[simp]
theorem video_requestStatus (sweep : Sweep) (enabled : Bool)
    : (sweep.requestStatus enabled).video = sweep.video :=
  rfl

@[simp]
theorem video_enter (sweep : Sweep) (mode : Mode)
    : (sweep.enter mode).video = { sweep.video with mode } :=
  rfl

@[simp]
theorem video_moveTo (sweep : Sweep) (line : UInt8)
    : (sweep.moveTo line).video
      = { sweep.video with line, coincidence := line == sweep.video.lineCompare } :=
  rfl

@[simp]
theorem video_completeFrame (sweep : Sweep)
    : sweep.completeFrame.video
      = { sweep.video with
          completed := sweep.video.drawing
          frameReady := true
          frames := sweep.video.frames + 1 } :=
  rfl

@[simp]
theorem video_spend (sweep : Sweep)
    : sweep.spend.video
      = { sweep.video with clock := sweep.video.clock - sweep.video.mode.duration } :=
  rfl

/-- The scan of object memory gives way to the transfer. -/
theorem leaveMode_oamScan (sweep : Sweep) (mode : sweep.video.mode = .oamScan)
    : sweep.leaveMode = { sweep with video := sweep.video.scanObjects }.enter .transfer := by
  simp only [leaveMode, mode]

/-- The transfer draws its line and gives way to the blank after it. -/
theorem leaveMode_transfer (sweep : Sweep) (mode : sweep.video.mode = .transfer)
    : sweep.leaveMode = { sweep with video := sweep.video.drawLine }.enter .hblank := by
  simp only [leaveMode, mode]

/-- After the last line on the screen the picture is complete. -/
theorem leaveMode_hblank_last (sweep : Sweep) (mode : sweep.video.mode = .hblank)
    (last : sweep.video.line + 1 = 144)
    : sweep.leaveMode = (sweep.moveTo (sweep.video.line + 1)).completeFrame.enter .vblank := by
  simp only [leaveMode, mode, video_moveTo, last, if_true]

/-- After any other line the next one begins. -/
theorem leaveMode_hblank_next (sweep : Sweep) (mode : sweep.video.mode = .hblank)
    (next : sweep.video.line + 1 ≠ 144)
    : sweep.leaveMode = (sweep.moveTo (sweep.video.line + 1)).enter .oamScan := by
  simp only [leaveMode, mode, video_moveTo, next, if_false]

/-- After the last line of vertical blanking the next frame begins. -/
theorem leaveMode_vblank_last (sweep : Sweep) (mode : sweep.video.mode = .vblank)
    (last : sweep.video.line = 153)
    : sweep.leaveMode
      = ({ sweep with video := { sweep.video with windowLine := 0 } }.moveTo 0).enter
          .oamScan := by
  simp only [leaveMode, mode, last, if_true]

/-- After any other line of vertical blanking the blanking goes on. -/
theorem leaveMode_vblank_next (sweep : Sweep) (mode : sweep.video.mode = .vblank)
    (next : sweep.video.line ≠ 153)
    : sweep.leaveMode = sweep.moveTo (sweep.video.line + 1) := by
  simp only [leaveMode, mode, next, if_false]

end Sweep

/-- What leaving a mode makes of the unit. -/
inductive Leaving (before : Video) : Video → Prop where
  | scan (mode : before.mode = .oamScan)
    : Leaving before { before.scanObjects with mode := .transfer }
  | draw (mode : before.mode = .transfer) (drawing : Picture) (windowLine : UInt8)
    : Leaving before { before with drawing, windowLine, mode := .hblank }
  | complete (mode : before.mode = .hblank) (last : before.line + 1 = 144)
    : Leaving before
        { before with
          line := before.line + 1
          coincidence := before.line + 1 == before.lineCompare
          completed := before.drawing
          frameReady := true
          frames := before.frames + 1
          mode := .vblank }
  | nextLine (mode : before.mode = .hblank) (next : before.line + 1 ≠ 144)
    : Leaving before
        { before with
          line := before.line + 1
          coincidence := before.line + 1 == before.lineCompare
          mode := .oamScan }
  | restart (mode : before.mode = .vblank) (last : before.line = 153)
    : Leaving before
        { before with
          line := 0
          coincidence := 0 == before.lineCompare
          windowLine := 0
          mode := .oamScan }
  | nextBlank (mode : before.mode = .vblank) (next : before.line ≠ 153)
    : Leaving before
        { before with
          line := before.line + 1
          coincidence := before.line + 1 == before.lineCompare }

/-- The display stays on or off, since no mode touches the control register as it is left. -/
theorem Leaving.lcdOn {before after : Video} (leaving : before.Leaving after)
    : after.lcdOn = before.lcdOn := by
  cases leaving <;> rfl

namespace Sweep

/-- Leaving a mode does one of these to the unit, by cases of the mode. -/
theorem leaving (sweep : Sweep)
    : sweep.video.Leaving sweep.leaveMode.video := by
  cases mode : sweep.video.mode with
  | oamScan =>
      rw [sweep.leaveMode_oamScan mode]
      exact .scan mode
  | transfer =>
      obtain ⟨drawing, windowLine, drawn⟩ := sweep.video.drawLine_eq
      rw [sweep.leaveMode_transfer mode, drawn]
      exact .draw mode drawing windowLine
  | hblank =>
      by_cases last : sweep.video.line + 1 = 144
      · rw [sweep.leaveMode_hblank_last mode last]
        exact .complete mode last
      · rw [sweep.leaveMode_hblank_next mode last]
        exact .nextLine mode last
  | vblank =>
      by_cases last : sweep.video.line = 153
      · rw [sweep.leaveMode_vblank_last mode last]
        exact .restart mode last
      · rw [sweep.leaveMode_vblank_next mode last]
        exact .nextBlank mode last

-----------------------------------------------------------------------------------------
-- States on the way
-----------------------------------------------------------------------------------------

/-- The states passed from a start on, each by leaving a mode whose time is over. -/
inductive Passes (start : Sweep) : Sweep → Prop where
  | start : Passes start start
  | leave {sweep : Sweep} (passed : Passes start sweep)
    (due : sweep.video.mode.duration ≤ sweep.video.clock)
    : Passes start sweep.spend.leaveMode

/-- Passing composes, by induction on the second part of the way. -/
theorem Passes.trans {start middle last : Sweep} (first : start.Passes middle)
    (second : middle.Passes last)
    : start.Passes last := by
  induction second with
  | start => exact first
  | leave _ due ih => exact .leave ih due

/-- A run settles in a state that it passes, by induction on the run. -/
theorem passes_settle (sweep : Sweep)
    : sweep.Passes sweep.settle := by
  fun_induction settle sweep with
  | case1 sweep settled => exact .start
  | case2 sweep unsettled ih =>
      exact (Passes.leave .start (Nat.le_of_not_lt unsettled)).trans ih

/-- A settled run has no time left to leave its mode. -/
theorem clock_settle (sweep : Sweep)
    : sweep.settle.video.clock < sweep.settle.video.mode.duration := by
  fun_induction settle sweep with
  | case1 sweep settled => exact settled
  | case2 sweep unsettled ih => exact ih

/-- With no time to leave its mode a run has settled already. -/
theorem settle_of_clock_lt {sweep : Sweep}
    (settled : sweep.video.clock < sweep.video.mode.duration)
    : sweep.settle = sweep := by
  rw [settle, if_pos settled]

/-- With time to leave its mode a run goes on from the next one. -/
theorem settle_of_due {sweep : Sweep}
    (due : sweep.video.mode.duration ≤ sweep.video.clock)
    : sweep.settle = sweep.spend.leaveMode.settle := by
  rw [settle, if_neg (Nat.not_lt.mpr due)]

/-- A run settles where it settles from any state that it passes. -/
theorem Passes.settle_eq {start sweep : Sweep} (passed : start.Passes sweep)
    : start.settle = sweep.settle := by
  induction passed with
  | start => rfl
  | leave _ due ih => rw [ih, settle_of_due due]

/-- What leaving a mode preserves holds in all states passed, by induction on the way. -/
theorem Passes.preserves {start sweep : Sweep} (passed : start.Passes sweep)
    (property : Sweep → Prop) (holds : property start)
    (leave : ∀ state : Sweep,
      state.video.mode.duration ≤ state.video.clock
      → property state
      → property state.spend.leaveMode)
    : property sweep := by
  induction passed with
  | start => exact holds
  | leave _ due ih => exact leave _ due ih

end Sweep

/-- The state in which a run of the unit begins: the display is on and the clocks are at
hand.
-/
def begin (video : Video) (clocks : Nat) (requests : UInt8) : Sweep :=
  { video := { video with clock := video.clock + clocks }, requests, frameDone := false }

/-- With the display on a run settles from its beginning. -/
theorem advance_of_on (video : Video) (on : video.lcdOn) (clocks : Nat) (requests : UInt8)
    : video.advance clocks requests = (video.begin clocks requests).settle := by
  rw [advance, if_pos on]
  rfl

/-- With the display off a run only returns to the start of a frame. -/
theorem advance_of_off (video : Video) (off : video.lcdOn = false) (clocks : Nat)
    (requests : UInt8)
    : video.advance clocks requests
      = { video :=
            { video with mode := .hblank, line := 0, clock := 0, windowLine := 0 }
          requests
          frameDone := false } := by
  rw [advance, if_neg (by simp [off])]

/-- What the beginning has and leaving a mode preserves, a run has in the end. -/
theorem advance_preserves {video : Video} (on : video.lcdOn) (clocks : Nat)
    (requests : UInt8) (property : Sweep → Prop) (holds : property (video.begin clocks requests))
    (leave : ∀ state : Sweep,
      state.video.mode.duration ≤ state.video.clock
      → property state
      → property state.spend.leaveMode)
    : property (video.advance clocks requests) := by
  rw [video.advance_of_on on]
  exact (Sweep.passes_settle _).preserves property holds leave

/-- The scan of object memory takes eighty clocks from its start. -/
theorem advance_scan {video : Video} (on : video.lcdOn) (mode : video.mode = .oamScan)
    (clock : video.clock = 0) (requests : UInt8)
    : (video.advance 80 requests).video = { video.scanObjects with mode := .transfer } := by
  have due : (video.begin 80 requests).video.mode.duration
      ≤ (video.begin 80 requests).video.clock := by
    simp [begin, mode, clock, Mode.duration]
  have left : (video.begin 80 requests).spend.leaveMode.video
      = { video.scanObjects with mode := .transfer } := by
    rw [Sweep.leaveMode_oamScan _ mode]
    simp only [begin, Sweep.video_enter, Sweep.video_spend, scanObjects, mode, clock]
    rfl
  have settled : (video.begin 80 requests).spend.leaveMode.video.clock
      < (video.begin 80 requests).spend.leaveMode.video.mode.duration := by
    rw [left]
    simp [scanObjects, clock, Mode.duration]
  rw [video.advance_of_on on, Sweep.settle_of_due due, Sweep.settle_of_clock_lt settled, left]

end Handheld.Video
