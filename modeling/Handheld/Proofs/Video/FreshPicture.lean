import Handheld.Proofs.Video.Action

/-! A completed picture consists of rows drawn in its own frame. Two units that differ only in
what their pictures hold, and of which no row has been drawn in this frame, are followed side
by side: row after row their pictures come to agree, so the pictures that they complete are
equal. Nothing of an earlier picture can therefore be left in a completed one.
-/

namespace Handheld.Video

-----------------------------------------------------------------------------------------
-- Units that differ in their pictures
-----------------------------------------------------------------------------------------

/-- The unit with other contents of its two pictures. -/
def withPictures (video : Video) (drawing completed : Picture) : Video :=
  { video with drawing, completed }

/-- The units agree on everything except the contents of their pictures. -/
def SameButPictures (left right : Video) : Prop :=
  ∃ drawing completed, right = left.withPictures drawing completed

/-- How many rows have been drawn since the frame began. -/
def rowsDrawn (video : Video) : Nat :=
  match video.mode with
  | .oamScan | .transfer => video.line.toNat
  | .hblank => video.line.toNat + 1
  | .vblank => screenHeight

/-- Another picture agrees with the one being drawn in all rows drawn in this frame. -/
structure Retraces (video : Video) (other : Picture) : Prop where
  onScreen : video.mode ≠ .vblank → video.line.toNat < screenHeight
  rows : ∀ y (h : y < screenHeight), y < video.rowsDrawn → video.drawing[y] = other[y]

/-- At the start of a frame no row has been drawn, so every picture retraces. -/
theorem retraces_of_line_zero {video : Video} (line : video.line = 0)
    (mode : video.mode = .oamScan ∨ video.mode = .transfer) (other : Picture)
    : video.Retraces other := by
  have none : video.rowsDrawn = 0 := by
    rcases mode with mode | mode <;> simp [rowsDrawn, mode, line]
  refine ⟨fun _ => by simp [line], ?_⟩
  intro y _ drawn
  omega

/-- A line on the screen is drawn into its own row. -/
theorem drawLine_of_onScreen (video : Video) (on : video.lcdOn)
    (visible : video.line.toNat < screenHeight)
    : video.drawLine
      = { video with
          drawing := video.drawing.set video.line.toNat (video.lineRow video.backdrop.1)
          windowLine :=
            if video.backdrop.2 then video.windowLine + 1 else video.windowLine } := by
  rw [drawLine, if_pos on, dif_pos visible]

/-- With other pictures the same row is drawn into them. -/
theorem drawLine_withPictures {video : Video} (on : video.lcdOn)
    (visible : video.line.toNat < screenHeight) (drawing completed : Picture)
    : (video.withPictures drawing completed).drawLine
      = video.drawLine.withPictures
          (drawing.set video.line.toNat (video.lineRow video.backdrop.1)) completed := by
  rw [video.drawLine_of_onScreen on visible,
    (video.withPictures drawing completed).drawLine_of_onScreen on visible]
  rfl

-----------------------------------------------------------------------------------------
-- One mode after another
-----------------------------------------------------------------------------------------

namespace Sweep

/-- The sweep with other contents of its pictures. -/
def withPictures (sweep : Sweep) (drawing completed : Picture) : Sweep :=
  { sweep with video := sweep.video.withPictures drawing completed }

@[simp]
theorem video_withPictures (sweep : Sweep) (drawing completed : Picture)
    : (sweep.withPictures drawing completed).video
      = sweep.video.withPictures drawing completed :=
  rfl

/-- Other pictures that a sweep retraces: the drawn rows agree, and the completed pictures
too once one has been completed on the way.
-/
structure Retraces (sweep : Sweep) (drawing completed : Picture) : Prop where
  on : sweep.video.lcdOn
  drawing : sweep.video.Retraces drawing
  completed : sweep.frameDone → sweep.video.completed = completed

/-- A sweep with other pictures reaches a state that differs from another only in pictures
that it retraces.
-/
def Follows (other sweep : Sweep) : Prop :=
  ∃ drawing completed,
    other = sweep.withPictures drawing completed ∧ sweep.Retraces drawing completed

variable {sweep : Sweep} {drawing completed : Picture}

/-- The scan of object memory draws nothing. -/
theorem Retraces.leave_oamScan (retraces : sweep.Retraces drawing completed)
    (mode : sweep.video.mode = .oamScan)
    : (sweep.withPictures drawing completed).leaveMode.Follows sweep.leaveMode := by
  obtain ⟨on, ⟨onScreen, rows⟩, done⟩ := retraces
  have visible := onScreen (by simp [mode])
  simp only [rowsDrawn, mode] at rows
  refine ⟨drawing, completed, ?_, ?_⟩
  · rw [sweep.leaveMode_oamScan mode,
      (sweep.withPictures drawing completed).leaveMode_oamScan mode]
    rfl
  · rw [sweep.leaveMode_oamScan mode]
    exact ⟨on, ⟨fun _ => visible, rows⟩, done⟩

/-- A transfer draws the same row into both pictures, and leaves the others as they are. -/
theorem Retraces.leave_transfer (retraces : sweep.Retraces drawing completed)
    (mode : sweep.video.mode = .transfer)
    : (sweep.withPictures drawing completed).leaveMode.Follows sweep.leaveMode := by
  obtain ⟨on, ⟨onScreen, rows⟩, done⟩ := retraces
  have visible := onScreen (by simp [mode])
  simp only [rowsDrawn, mode] at rows
  let row := sweep.video.lineRow sweep.video.backdrop.1
  refine ⟨drawing.set sweep.video.line.toNat row, completed, ?_, ?_⟩
  · rw [sweep.leaveMode_transfer mode,
      (sweep.withPictures drawing completed).leaveMode_transfer mode,
      video_withPictures, drawLine_withPictures on visible]
    rfl
  · rw [sweep.leaveMode_transfer mode, sweep.video.drawLine_of_onScreen on visible]
    refine ⟨on, ⟨fun _ => visible, ?_⟩, done⟩
    intro y h drawn
    change y < sweep.video.line.toNat + 1 at drawn
    change (sweep.video.drawing.set sweep.video.line.toNat row)[y]
      = (drawing.set sweep.video.line.toNat row)[y]
    rw [Vector.getElem_set, Vector.getElem_set]
    split
    · rfl
    · exact rows y h (by omega)

/-- After the last line on the screen all rows agree, and so do the completed pictures. -/
theorem Retraces.leave_hblank_last (retraces : sweep.Retraces drawing completed)
    (mode : sweep.video.mode = .hblank) (last : sweep.video.line + 1 = 144)
    : (sweep.withPictures drawing completed).leaveMode.Follows sweep.leaveMode := by
  obtain ⟨on, ⟨onScreen, rows⟩, -⟩ := retraces
  have height : screenHeight = 144 := rfl
  have visible := onScreen (by simp [mode])
  have next := toNat_line_succ sweep.video.line (by omega)
  simp only [rowsDrawn, mode] at rows
  have all : sweep.video.drawing = drawing := by
    apply Vector.ext
    intro y h
    refine rows y h ?_
    have below : (sweep.video.line + 1).toNat = 144 := by rw [last]; rfl
    omega
  refine ⟨drawing, drawing, ?_, ?_⟩
  · rw [sweep.leaveMode_hblank_last mode last,
      (sweep.withPictures drawing completed).leaveMode_hblank_last mode last]
    rfl
  · rw [sweep.leaveMode_hblank_last mode last]
    refine ⟨on, ⟨fun blank => absurd rfl blank, ?_⟩, fun _ => all⟩
    intro y h _
    change sweep.video.drawing[y] = drawing[y]
    rw [all]

/-- After any other line on the screen the rows up to the next one agree. -/
theorem Retraces.leave_hblank_next (retraces : sweep.Retraces drawing completed)
    (mode : sweep.video.mode = .hblank) (next : sweep.video.line + 1 ≠ 144)
    : (sweep.withPictures drawing completed).leaveMode.Follows sweep.leaveMode := by
  obtain ⟨on, ⟨onScreen, rows⟩, done⟩ := retraces
  have height : screenHeight = 144 := rfl
  have visible := onScreen (by simp [mode])
  have number := toNat_line_succ sweep.video.line (by omega)
  simp only [rowsDrawn, mode] at rows
  have below : (sweep.video.line + 1).toNat < screenHeight := by
    have : (sweep.video.line + 1).toNat ≠ 144 := fun h => next (UInt8.toNat_inj.mp h)
    omega
  refine ⟨drawing, completed, ?_, ?_⟩
  · rw [sweep.leaveMode_hblank_next mode next,
      (sweep.withPictures drawing completed).leaveMode_hblank_next mode next]
    rfl
  · rw [sweep.leaveMode_hblank_next mode next]
    refine ⟨on, ⟨fun _ => below, ?_⟩, done⟩
    intro y h drawn
    change y < (sweep.video.line + 1).toNat at drawn
    exact rows y h (by omega)

/-- The last line of vertical blanking gives way to a frame without rows. -/
theorem Retraces.leave_vblank_last (retraces : sweep.Retraces drawing completed)
    (mode : sweep.video.mode = .vblank) (last : sweep.video.line = 153)
    : (sweep.withPictures drawing completed).leaveMode.Follows sweep.leaveMode := by
  obtain ⟨on, -, done⟩ := retraces
  refine ⟨drawing, completed, ?_, ?_⟩
  · rw [sweep.leaveMode_vblank_last mode last,
      (sweep.withPictures drawing completed).leaveMode_vblank_last mode last]
    rfl
  · rw [sweep.leaveMode_vblank_last mode last]
    exact ⟨on, retraces_of_line_zero rfl (.inl rfl) drawing, done⟩

/-- Any other line of vertical blanking leaves the pictures as they are. -/
theorem Retraces.leave_vblank_next (retraces : sweep.Retraces drawing completed)
    (mode : sweep.video.mode = .vblank) (next : sweep.video.line ≠ 153)
    : (sweep.withPictures drawing completed).leaveMode.Follows sweep.leaveMode := by
  obtain ⟨on, ⟨-, rows⟩, done⟩ := retraces
  simp only [rowsDrawn, mode] at rows
  refine ⟨drawing, completed, ?_, ?_⟩
  · rw [sweep.leaveMode_vblank_next mode next,
      (sweep.withPictures drawing completed).leaveMode_vblank_next mode next]
    rfl
  · rw [sweep.leaveMode_vblank_next mode next]
    refine ⟨on, ⟨fun blank => absurd mode blank, ?_⟩, done⟩
    intro y h _
    exact rows y h h

/-- Leaving a mode, the other pictures follow, by cases of the mode. -/
theorem Retraces.leaveMode (retraces : sweep.Retraces drawing completed)
    : (sweep.withPictures drawing completed).leaveMode.Follows sweep.leaveMode := by
  cases mode : sweep.video.mode with
  | oamScan => exact retraces.leave_oamScan mode
  | transfer => exact retraces.leave_transfer mode
  | hblank =>
      by_cases last : sweep.video.line + 1 = 144
      · exact retraces.leave_hblank_last mode last
      · exact retraces.leave_hblank_next mode last
  | vblank =>
      by_cases last : sweep.video.line = 153
      · exact retraces.leave_vblank_last mode last
      · exact retraces.leave_vblank_next mode last

/-- A whole run follows too: mode by mode the other sweep passes states with the same clocks,
until both settle.
-/
theorem Retraces.settle (retraces : sweep.Retraces drawing completed)
    : (sweep.withPictures drawing completed).settle.Follows sweep.settle := by
  have passed := sweep.passes_settle.preserves
    (fun state =>
      ∃ other, (sweep.withPictures drawing completed).Passes other ∧ other.Follows state)
    ⟨_, .start, drawing, completed, rfl, retraces⟩
    (by
      rintro state due ⟨_, other, nextDrawing, nextCompleted, rfl, on, ⟨onScreen, rows⟩, done⟩
      have spent : state.spend.Retraces nextDrawing nextCompleted :=
        ⟨on, ⟨onScreen, rows⟩, done⟩
      exact ⟨_, other.leave due, spent.leaveMode⟩)
  obtain ⟨_, other, nextDrawing, nextCompleted, rfl, settled⟩ := passed
  have clock : (sweep.settle.withPictures nextDrawing nextCompleted).video.clock
      < (sweep.settle.withPictures nextDrawing nextCompleted).video.mode.duration :=
    sweep.clock_settle
  exact ⟨nextDrawing, nextCompleted, other.settle_eq.trans (settle_of_clock_lt clock), settled⟩

end Sweep

-----------------------------------------------------------------------------------------
-- One operation after another
-----------------------------------------------------------------------------------------

/-- Two units that differ only in their pictures, the second of which the first retraces as
long as its display is on.
-/
def Alongside (left right : Video) : Prop :=
  ∃ drawing completed,
    right = left.withPictures drawing completed ∧ (left.lcdOn → left.Retraces drawing)

variable {video : Video} {drawing completed : Picture}

/-- At the start of a frame the units are alongside, by the lack of drawn rows. -/
theorem alongside_of_line_zero (line : video.line = 0)
    (mode : video.mode = .oamScan ∨ video.mode = .transfer)
    : video.Alongside (video.withPictures drawing completed) :=
  ⟨drawing, completed, rfl, fun _ => retraces_of_line_zero line mode drawing⟩

/-- With the display off the units are alongside whatever has been drawn. -/
theorem alongside_of_off (off : video.lcdOn = false)
    : video.Alongside (video.withPictures drawing completed) :=
  ⟨drawing, completed, rfl, fun on => by simp [off] at on⟩

/-- A change of a unit that leaves its display, position and picture alone keeps another one
alongside that changes in the same way.
-/
theorem alongside_of_drawn (retraces : video.lcdOn → video.Retraces drawing)
    {changed other : Video} (same : other = changed.withPictures drawing completed)
    (on : changed.lcdOn = video.lcdOn)
    (drawn : changed.mode = video.mode ∧ changed.line = video.line
      ∧ changed.drawing = video.drawing)
    : changed.Alongside other := by
  obtain ⟨mode, line, picture⟩ := drawn
  refine ⟨drawing, completed, same, fun display => ?_⟩
  obtain ⟨onScreen, rows⟩ := retraces (on ▸ display)
  refine ⟨by rw [mode, line]; exact onScreen, ?_⟩
  rw [rowsDrawn, mode, line, picture]
  exact rows

/-- A write to the control register keeps the units alongside: it leaves the frame as it is,
switches the display off, or begins a frame.
-/
theorem alongside_writeControl (retraces : video.lcdOn → video.Retraces drawing)
    (value : UInt8)
    : (video.writeControl value).Alongside
        ((video.withPictures drawing completed).writeControl value) := by
  let other := video.withPictures drawing completed
  cases wasOn : video.lcdOn <;> cases isOn : switchesOn value
  case false.true =>
    rw [video.writeControl_of_on wasOn isOn, other.writeControl_of_on wasOn isOn]
    exact alongside_of_line_zero rfl (.inl rfl)
  case true.false =>
    rw [video.writeControl_of_off wasOn isOn, other.writeControl_of_off wasOn isOn]
    exact alongside_of_off isOn
  all_goals
    have same : switchesOn value = video.lcdOn := isOn.trans wasOn.symm
    rw [video.writeControl_of_same same, other.writeControl_of_same same]
    exact alongside_of_drawn retraces rfl same ⟨rfl, rfl, rfl⟩

/-- So does a write to any register: all others leave the frame as it is. -/
theorem alongside_write (retraces : video.lcdOn → video.Retraces drawing)
    (register : Register) (value : UInt8)
    : (video.write register value).Alongside
        ((video.withPictures drawing completed).write register value) := by
  cases register
  case control => exact alongside_writeControl retraces value
  all_goals exact alongside_of_drawn retraces rfl rfl ⟨rfl, rfl, rfl⟩

/-- A run with the display on follows, from its beginning on. -/
theorem follows_advance (on : video.lcdOn) (retraces : video.Retraces drawing)
    (completed : Picture) (clocks : Nat) (requests : UInt8)
    : ((video.withPictures drawing completed).advance clocks requests).Follows
        (video.advance clocks requests) := by
  obtain ⟨onScreen, rows⟩ := retraces
  have start : (video.begin clocks requests).Retraces drawing completed :=
    ⟨on, ⟨onScreen, rows⟩, fun done => by simp [begin] at done⟩
  rw [video.advance_of_on on, (video.withPictures drawing completed).advance_of_on on]
  exact start.settle

/-- Every operation keeps the units alongside, by cases of the operation. -/
theorem Alongside.perform {left right : Video} (alongside : left.Alongside right)
    (action : Action)
    : (left.perform action).Alongside (right.perform action) := by
  obtain ⟨drawing, completed, rfl, retraces⟩ := alongside
  cases action with
  | boot => exact alongside_of_line_zero rfl (.inl rfl)
  | write address value =>
      simp only [Video.perform, writeAt]
      cases Register.at? address with
      | none => exact ⟨drawing, completed, rfl, retraces⟩
      | some register => exact alongside_write retraces register value
  | storeVram cell value => exact alongside_of_drawn retraces rfl rfl ⟨rfl, rfl, rfl⟩
  | storeOam cell value => exact alongside_of_drawn retraces rfl rfl ⟨rfl, rfl, rfl⟩
  | replaceObjects objects => exact alongside_of_drawn retraces rfl rfl ⟨rfl, rfl, rfl⟩
  | acknowledge => exact alongside_of_drawn retraces rfl rfl ⟨rfl, rfl, rfl⟩
  | advance clocks requests =>
      simp only [Video.perform]
      cases on : left.lcdOn with
      | true =>
          obtain ⟨nextDrawing, nextCompleted, follows, next⟩ :=
            follows_advance on (retraces on) completed clocks requests
          rw [follows]
          exact ⟨nextDrawing, nextCompleted, rfl, fun _ => next.drawing⟩
      | false =>
          rw [left.advance_of_off on, (left.withPictures drawing completed).advance_of_off on]
          exact alongside_of_off on

/-- So does any number of operations, by induction on them. -/
theorem Alongside.performAll {left right : Video} (alongside : left.Alongside right)
    (actions : List Action)
    : (left.performAll actions).Alongside (right.performAll actions) := by
  induction actions generalizing left right with
  | nil => exact alongside
  | cons action rest ih => exact ih (alongside.perform action)

/-- The units complete pictures in the same operations. -/
theorem Alongside.completes_eq {left right : Video} (alongside : left.Alongside right)
    (action : Action)
    : left.completes action = right.completes action := by
  obtain ⟨drawing, completed, rfl, retraces⟩ := alongside
  cases action with
  | advance clocks requests =>
      simp only [completes]
      cases on : left.lcdOn with
      | true =>
          obtain ⟨_, _, follows, -⟩ :=
            follows_advance on (retraces on) completed clocks requests
          rw [follows]
          rfl
      | false =>
          rw [left.advance_of_off on, (left.withPictures drawing completed).advance_of_off on]
  | _ => rfl

/-- The pictures that they complete are equal. -/
theorem Alongside.completed_eq {left right : Video} (alongside : left.Alongside right)
    {action : Action} (completes : left.completes action)
    : (left.perform action).completed = (right.perform action).completed := by
  obtain ⟨drawing, completed, rfl, retraces⟩ := alongside
  cases action with
  | advance clocks requests =>
      simp only [Video.perform]
      cases on : left.lcdOn with
      | true =>
          obtain ⟨_, _, follows, next⟩ :=
            follows_advance on (retraces on) completed clocks requests
          rw [follows]
          exact next.completed completes
      | false => simp [Video.completes, left.advance_of_off on] at completes
  | _ => simp [Video.completes] at completes

-----------------------------------------------------------------------------------------
-- Completed pictures
-----------------------------------------------------------------------------------------

/-- A write to any register leaves the completed picture alone. -/
theorem completed_write (video : Video) (register : Register) (value : UInt8)
    : (video.write register value).completed = video.completed := by
  have controls {after : Video} (controlled : video.Controlled value after)
      : after.completed = video.completed := by
    cases controlled <;> rfl
  cases register
  case control => exact controls (video.controlled value)
  all_goals rfl

/-- Leaving a mode, a sweep either completes a picture and counts it, or leaves the completed one
and the count alone.
-/
theorem Sweep.completed_leaveMode (sweep : Sweep)
    : sweep.leaveMode.frameDone ∧ sweep.leaveMode.video.frames = sweep.video.frames + 1
      ∨ sweep.leaveMode.frameDone = sweep.frameDone
        ∧ sweep.leaveMode.video.completed = sweep.video.completed
        ∧ sweep.leaveMode.video.frames = sweep.video.frames := by
  cases mode : sweep.video.mode with
  | oamScan => exact .inr (by rw [sweep.leaveMode_oamScan mode]; exact ⟨rfl, rfl, rfl⟩)
  | transfer =>
      obtain ⟨_, _, drawn⟩ := sweep.video.drawLine_eq
      exact .inr (by rw [sweep.leaveMode_transfer mode, drawn]; exact ⟨rfl, rfl, rfl⟩)
  | hblank =>
      by_cases last : sweep.video.line + 1 = 144
      · exact .inl (by rw [sweep.leaveMode_hblank_last mode last]; exact ⟨rfl, rfl⟩)
      · exact .inr (by rw [sweep.leaveMode_hblank_next mode last]; exact ⟨rfl, rfl, rfl⟩)
  | vblank =>
      by_cases last : sweep.video.line = 153
      · exact .inr (by rw [sweep.leaveMode_vblank_last mode last]; exact ⟨rfl, rfl, rfl⟩)
      · exact .inr (by rw [sweep.leaveMode_vblank_next mode last]; exact ⟨rfl, rfl, rfl⟩)

/-- An operation that completes no picture leaves the completed one alone. -/
theorem completed_perform {action : Action} (incomplete : video.completes action = false)
    : (video.perform action).completed = video.completed := by
  cases action with
  | write address value =>
      simp only [perform, writeAt]
      cases Register.at? address with
      | none => rfl
      | some register => exact completed_write video register value
  | advance clocks requests =>
      simp only [perform]
      cases on : video.lcdOn with
      | false => rw [video.advance_of_off on]
      | true =>
          have kept := advance_preserves on clocks requests
            (fun sweep =>
              sweep.frameDone ∨ sweep.video.completed = video.completed)
            (.inr rfl)
            (by
              rintro sweep - holds
              rcases sweep.spend.completed_leaveMode with ⟨done, -⟩ | ⟨done, same, -⟩
              · exact .inl done
              · rw [done, same]
                exact holds)
          simp only [completes] at incomplete
          simpa [incomplete] using kept
  | _ => rfl

/-- Completed pictures hold nothing of earlier frames. Whatever two units hold in their
pictures when a frame begins, the same operations complete pictures in both and those are
equal; and no other operation touches a completed picture.
-/
theorem completed_is_fresh {left right : Video} (same : left.SameButPictures right)
    (fresh : ¬left.lcdOn ∨ left.line = 0 ∧ (left.mode = .oamScan ∨ left.mode = .transfer))
    : (∀ actions action,
        (left.performAll actions).completes action = (right.performAll actions).completes action
        ∧ ((left.performAll actions).completes action
          → ((left.performAll actions).perform action).completed
            = ((right.performAll actions).perform action).completed))
      ∧ ∀ (video : Video) (action : Action),
          video.completes action = false
          → (video.perform action).completed = video.completed := by
  obtain ⟨drawing, completed, rfl⟩ := same
  have alongside : left.Alongside (left.withPictures drawing completed) := by
    rcases fresh with off | ⟨line, mode⟩
    · exact alongside_of_off (by simpa using off)
    · exact alongside_of_line_zero line mode
  refine ⟨fun actions action => ?_, fun video action => completed_perform⟩
  have after := alongside.performAll actions
  exact ⟨after.completes_eq action, after.completed_eq⟩

/-- After start-up, a picture left black by an earlier program shows in no completed picture.
-/
theorem completed_is_fresh_afterBoot
    : let black : Picture :=
        Vector.replicate screenHeight (Vector.replicate screenWidth .black)
      let left := initial.afterBoot
      let right := initial.afterBoot.withPictures black black
      left.SameButPictures right
      ∧ (left.line = 0 ∧ left.mode = .oamScan)
      ∧ ∀ actions action,
          (left.performAll actions).completes action
          → ((left.performAll actions).perform action).completed
            = ((right.performAll actions).perform action).completed := by
  intro black left right
  have same : left.SameButPictures right := ⟨black, black, rfl⟩
  have start : left.line = 0 ∧ left.mode = .oamScan := ⟨rfl, rfl⟩
  have fresh := completed_is_fresh same (.inr ⟨start.1, .inl start.2⟩)
  exact ⟨same, start, fun actions action => (fresh.1 actions action).2⟩

end Handheld.Video
