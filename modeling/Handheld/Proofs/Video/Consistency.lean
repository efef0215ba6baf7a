import Handheld.Proofs.Video.FreshPicture
import Handheld.Proofs.Video.Latch
import Handheld.Proofs.Video.Position

/-! What holds of the video unit at all times, whatever happens to it. The position lies within
the frame, the window is never ahead of the rows drawn, the objects of a line are few, and both
pictures consist of shades. With the display off the unit stands at the start of a frame.
-/

namespace Handheld

-----------------------------------------------------------------------------------------
-- Shades
-----------------------------------------------------------------------------------------

/-- The pixel is one of the four grays, without transparency. -/
structure Pixel.IsGray (pixel : Pixel) : Prop where
  green : pixel.green = pixel.red
  blue : pixel.blue = pixel.red
  level : pixel.red ∈ [255, 180, 90, 0]
  alpha : pixel.alpha = 255

theorem Pixel.isGray_ofShade (shade : Shade)
    : (Pixel.ofShade shade).IsGray := by
  match shade with
  | 0 | 1 | 2 | 3 => exact ⟨rfl, rfl, by decide, rfl⟩

/-- All pixels of the row are gray. -/
def PixelRow.IsGray (row : PixelRow) : Prop :=
  ∀ pixel ∈ row, pixel.IsGray

/-- All pixels of the picture are gray. -/
def Picture.IsGray (picture : Picture) : Prop :=
  ∀ row : PixelRow, row ∈ picture → row.IsGray

theorem Picture.isGray_blank
    : Picture.blank.IsGray := by
  intro row shown pixel member
  obtain ⟨-, rfl⟩ := Vector.mem_replicate.mp shown
  obtain ⟨-, rfl⟩ := Vector.mem_replicate.mp member
  exact Pixel.isGray_ofShade 0

/-- A row with one more shade stays gray. -/
theorem PixelRow.IsGray.set {row : PixelRow} (gray : row.IsGray) (x : Nat)
    (inside : x < screenWidth) (shade : Shade)
    : PixelRow.IsGray (Vector.set row x (.ofShade shade) inside) := by
  intro pixel member
  rcases Vector.mem_or_eq_of_mem_set member with old | rfl
  · exact gray pixel old
  · exact Pixel.isGray_ofShade shade

/-- A picture with one gray row more stays gray. -/
theorem Picture.IsGray.set {picture : Picture} (gray : picture.IsGray) {row : PixelRow}
    (shaded : row.IsGray) (y : Nat) (inside : y < screenHeight)
    : Picture.IsGray (Vector.set picture y row inside) := by
  intro other member
  rcases Vector.mem_or_eq_of_mem_set member with old | rfl
  · exact gray other old
  · exact shaded

namespace Video

/-- A pixel of an object is painted in a shade, or it hides. -/
theorem isGray_paintOpaque (palette : UInt8) (behind : Bool) (color : ColorId) (below : ColorRow)
    {canvas : Canvas} (gray : PixelRow.IsGray canvas.pixels) (x : Fin screenWidth)
    : PixelRow.IsGray (paintOpaque palette behind color below canvas x).pixels := by
  unfold paintOpaque
  dsimp only
  split
  · exact gray
  · exact gray.set x.val x.isLt _

/-- An object's columns are painted in shades, by induction on them. -/
theorem isGray_paintColumns (sprite : Sprite) (palette low high : UInt8) (below : ColorRow)
    (columns : List Nat) {canvas : Canvas} (gray : PixelRow.IsGray canvas.pixels)
    : PixelRow.IsGray (paintColumns sprite palette low high below columns canvas).pixels := by
  induction columns generalizing canvas with
  | nil => exact gray
  | cons column rest ih =>
      refine ih ?_
      -- off the screen, claimed already or transparent, the canvas stays as it is
      split
      · dsimp only
        generalize planeColor low high _ = color
        split
        · exact gray
        · split
          · exact gray
          · exact isGray_paintOpaque palette _ color below gray _
      · exact gray

/-- So is an object, if its row has planes. -/
theorem isGray_paintSprite (video : Video) (below : ColorRow) (sprite : Sprite) {canvas : Canvas}
    (gray : PixelRow.IsGray canvas.pixels)
    : PixelRow.IsGray (video.paintSprite below canvas sprite).pixels := by
  unfold paintSprite
  split
  · exact gray
  · exact isGray_paintColumns sprite _ _ _ below _ gray

/-- So are all objects of the line, by induction on them. -/
theorem isGray_foldl_paintSprite (video : Video) (below : ColorRow) (sprites : List Sprite)
    {canvas : Canvas} (gray : PixelRow.IsGray canvas.pixels)
    : PixelRow.IsGray (sprites.foldl (video.paintSprite below) canvas).pixels := by
  induction sprites generalizing canvas with
  | nil => exact gray
  | cons sprite rest ih => exact ih (video.isGray_paintSprite below sprite gray)

/-- A line is drawn in shades. -/
theorem isGray_lineRow (video : Video) (below : ColorRow)
    : (video.lineRow below).IsGray := by
  have backdrop : PixelRow.IsGray
      (below.map fun color => .ofShade (paletteShade video.backgroundPalette color)) := by
    intro pixel member
    obtain ⟨color, -, rfl⟩ := Vector.mem_map.mp member
    exact Pixel.isGray_ofShade _
  unfold lineRow
  split
  · exact video.isGray_foldl_paintSprite below video.sprites backdrop
  · exact backdrop

-----------------------------------------------------------------------------------------
-- What holds at all times
-----------------------------------------------------------------------------------------

/-- What holds in every state that the unit passes. -/
structure Orderly (video : Video) : Prop where
  line : video.line.toNat ≤ 153
  blanking : video.mode = .vblank ↔ 144 ≤ video.line.toNat
  /-- The window has at most as many rows as have been drawn. -/
  window : video.windowLine.toNat ≤ video.rowsDrawn
  few : video.sprites.length ≤ spritesPerLine
  drawing : video.drawing.IsGray
  completed : video.completed.IsGray

/-- What holds in every state in which the unit comes to rest. -/
structure Consistent (video : Video) : Prop extends Orderly video where
  clock : video.clock < video.mode.duration
  off : video.lcdOn = false
    → video.mode = .hblank ∧ video.line = 0 ∧ video.clock = 0 ∧ video.windowLine = 0

-----------------------------------------------------------------------------------------
-- The passage of time
-----------------------------------------------------------------------------------------

/-- While a line is transferred it lies on the screen. -/
theorem Orderly.onScreen {video : Video} (orderly : video.Orderly)
    (mode : video.mode ≠ .vblank)
    : video.line.toNat < screenHeight :=
  Nat.lt_of_not_le fun hidden => mode (orderly.blanking.mpr hidden)

/-- Leaving a mode keeps the window behind the rows drawn and the pictures gray, by cases of the
mode. Only a line that is drawn moves the window on, and it adds a row.
-/
theorem Orderly.drawn {sweep : Sweep} (orderly : sweep.video.Orderly) (on : sweep.video.lcdOn)
    : sweep.leaveMode.video.windowLine.toNat ≤ sweep.leaveMode.video.rowsDrawn
      ∧ sweep.leaveMode.video.drawing.IsGray
      ∧ sweep.leaveMode.video.completed.IsGray := by
  have window := orderly.window
  cases mode : sweep.video.mode with
  | oamScan =>
      rw [sweep.leaveMode_oamScan mode]
      simp only [rowsDrawn, mode] at window
      exact ⟨window, orderly.drawing, orderly.completed⟩
  | transfer =>
      have visible := orderly.onScreen (by simp [mode])
      rw [sweep.leaveMode_transfer mode, sweep.video.drawLine_of_onScreen on visible]
      simp only [rowsDrawn, mode] at window
      have next : (sweep.video.windowLine + 1).toNat ≤ sweep.video.windowLine.toNat + 1 := by
        rw [UInt8.toNat_add]
        exact Nat.mod_le _ _
      refine ⟨?_, orderly.drawing.set (sweep.video.isGray_lineRow _) _ visible, orderly.completed⟩
      change (if sweep.video.backdrop.2 then sweep.video.windowLine + 1
          else sweep.video.windowLine).toNat ≤ sweep.video.line.toNat + 1
      split <;> omega
  | hblank =>
      have visible := orderly.onScreen (by simp [mode])
      have height : screenHeight = 144 := rfl
      have number := toNat_line_succ sweep.video.line (by omega)
      simp only [rowsDrawn, mode] at window
      by_cases last : sweep.video.line + 1 = 144
      · rw [sweep.leaveMode_hblank_last mode last]
        refine ⟨?_, orderly.drawing, orderly.drawing⟩
        change sweep.video.windowLine.toNat ≤ screenHeight
        omega
      · rw [sweep.leaveMode_hblank_next mode last]
        refine ⟨?_, orderly.drawing, orderly.completed⟩
        change sweep.video.windowLine.toNat ≤ (sweep.video.line + 1).toNat
        omega
  | vblank =>
      simp only [rowsDrawn, mode] at window
      by_cases last : sweep.video.line = 153
      · rw [sweep.leaveMode_vblank_last mode last]
        exact ⟨Nat.le_refl 0, orderly.drawing, orderly.completed⟩
      · rw [sweep.leaveMode_vblank_next mode last]
        refine ⟨?_, orderly.drawing, orderly.completed⟩
        change sweep.video.windowLine.toNat
          ≤ ({ sweep.video with line := sweep.video.line + 1 } : Video).rowsDrawn
        simp only [rowsDrawn, mode]
        exact window

/-- Leaving a mode keeps all that holds at all times. -/
theorem Orderly.leaveMode {sweep : Sweep} (orderly : sweep.video.Orderly)
    (on : sweep.video.lcdOn)
    : sweep.leaveMode.video.Orderly := by
  have counts : sweep.video.Counts sweep.video.counted :=
    ⟨on, Nat.lt_succ_of_le orderly.line, orderly.blanking, rfl⟩
  have placed := sweep.leaving.counts counts
  obtain ⟨window, drawing, completed⟩ := orderly.drawn on
  exact
    { line := Nat.le_of_lt_succ placed.inFrame
      blanking := placed.blanking
      window
      few := sweep.leaving.few orderly.few
      drawing
      completed }

/-- It holds in all states that a run passes. -/
theorem Orderly.passes {start sweep : Sweep} (orderly : start.video.Orderly)
    (on : start.video.lcdOn) (passed : start.Passes sweep)
    : sweep.video.lcdOn ∧ sweep.video.Orderly := by
  refine passed.preserves (fun state => state.video.lcdOn ∧ state.video.Orderly) ⟨on, orderly⟩ ?_
  rintro state - ⟨displayed, line, blanking, window, few, drawing, completed⟩
  have spent : state.spend.video.Orderly := ⟨line, blanking, window, few, drawing, completed⟩
  exact ⟨state.spend.leaving.lcdOn.trans displayed, spent.leaveMode displayed⟩

/-- It holds when a run begins. -/
theorem Orderly.begin {video : Video} (orderly : video.Orderly) (clocks : Nat)
    (requests : UInt8)
    : (video.begin clocks requests).video.Orderly :=
  ⟨orderly.line, orderly.blanking, orderly.window, orderly.few, orderly.drawing, orderly.completed⟩

-----------------------------------------------------------------------------------------
-- Operations
-----------------------------------------------------------------------------------------

variable {video : Video}

theorem consistent_initial
    : initial.Consistent where
  line := by decide
  blanking := by decide
  window := by decide
  few := by decide
  drawing := Picture.isGray_blank
  completed := Picture.isGray_blank
  clock := by decide
  off _ := ⟨rfl, rfl, rfl, rfl⟩

/-- A unit at the start of a frame is consistent when its objects and its pictures are. -/
theorem consistent_of_line_zero (few : video.sprites.length ≤ spritesPerLine)
    (drawing : video.drawing.IsGray) (completed : video.completed.IsGray) (line : video.line = 0)
    (clock : video.clock = 0) (window : video.windowLine = 0)
    (mode : video.mode = .hblank ∨ video.mode = .oamScan ∧ video.lcdOn)
    : video.Consistent := by
  have visible : video.mode ≠ .vblank := by
    rcases mode with mode | ⟨mode, -⟩ <;> simp [mode]
  have placed := placed_of_line_zero line visible clock
  refine ⟨⟨Nat.le_of_lt_succ placed.line, placed.blanking, ?_, few, drawing, completed⟩,
    placed.clock, fun off => ⟨?_, line, clock, window⟩⟩
  · rw [window]
    exact Nat.zero_le _
  · rcases mode with mode | ⟨-, on⟩
    · exact mode
    · rw [off] at on
      cases on

/-- Switching the display off or on returns to the start of a frame; the window has no rows then,
since it has none while the display is off.
-/
theorem Consistent.writeControl (consistent : video.Consistent) (value : UInt8)
    : (video.writeControl value).Consistent := by
  obtain ⟨⟨line, blanking, window, few, drawing, completed⟩, clock, atStart⟩ := consistent
  cases wasOn : video.lcdOn <;> cases isOn : switchesOn value
  case false.true =>
    rw [video.writeControl_of_on wasOn isOn]
    exact consistent_of_line_zero few drawing completed rfl rfl (atStart wasOn).2.2.2
      (.inr ⟨rfl, isOn⟩)
  case true.false =>
    rw [video.writeControl_of_off wasOn isOn]
    exact consistent_of_line_zero few drawing completed rfl rfl rfl (.inl rfl)
  all_goals
    have same : switchesOn value = video.lcdOn := isOn.trans wasOn.symm
    rw [video.writeControl_of_same same]
    exact ⟨⟨line, blanking, window, few, drawing, completed⟩, clock,
      fun off => atStart (same.symm.trans off)⟩

/-- Time keeps the unit consistent, since it comes to rest in a state that it passes. -/
theorem Consistent.advance (consistent : video.Consistent) (clocks : Nat) (requests : UInt8)
    : (video.advance clocks requests).video.Consistent := by
  cases on : video.lcdOn with
  | true =>
      rw [video.advance_of_on on]
      obtain ⟨displayed, orderly⟩ :=
        (consistent.begin clocks requests).passes on (Sweep.passes_settle _)
      refine ⟨orderly, Sweep.clock_settle _, fun off => ?_⟩
      rw [off] at displayed
      cases displayed
  | false =>
      rw [video.advance_of_off on]
      exact consistent_of_line_zero consistent.few consistent.drawing consistent.completed rfl rfl
        rfl (.inl rfl)

/-- Every operation keeps the unit consistent, by cases of the operation. -/
theorem Consistent.perform (consistent : video.Consistent) (action : Action)
    : (video.perform action).Consistent := by
  have ⟨⟨line, blanking, window, few, drawing, completed⟩, clock, off⟩ := consistent
  cases action with
  | boot =>
      have on : switchesOn 0x91 := by decide
      exact consistent_of_line_zero few drawing completed rfl rfl rfl (.inr ⟨rfl, on⟩)
  | write address value =>
      simp only [Video.perform, writeAt]
      cases Register.at? address with
      | none => exact consistent
      | some register =>
          cases register with
          | control => exact consistent.writeControl value
          | _ => exact ⟨⟨line, blanking, window, few, drawing, completed⟩, clock, off⟩
  | advance clocks requests => exact consistent.advance clocks requests
  | storeVram _ _ | storeOam _ _ | replaceObjects _ | acknowledge =>
      exact ⟨⟨line, blanking, window, few, drawing, completed⟩, clock, off⟩

/-- After power on, whatever operations follow, the unit is consistent. -/
theorem consistent_performAll (actions : List Action)
    : (initial.performAll actions).Consistent :=
  performAll_preserves (·.Consistent) (fun action _ _ consistent => consistent.perform action)
    consistent_initial

/-- The unit is consistent after any operations, and orderly in every state that it passes while
it runs on from there. In particular the window has less than 144 rows whenever one is added, and
the line is at most the last one of a frame, so neither number ever wraps.
-/
theorem stays_consistent (actions : List Action)
    : (initial.performAll actions).Consistent
      ∧ ∀ clocks requests sweep,
          (initial.performAll actions).lcdOn
          → ((initial.performAll actions).begin clocks requests).Passes sweep
          → sweep.video.Orderly
            ∧ (sweep.video.mode = .transfer → sweep.video.windowLine.toNat < screenHeight) := by
  have consistent := consistent_performAll actions
  refine ⟨consistent, ?_⟩
  intro clocks requests sweep on passed
  obtain ⟨-, orderly⟩ := (consistent.begin clocks requests).passes on passed
  refine ⟨orderly, fun mode => ?_⟩
  have visible := orderly.onScreen (by simp [mode])
  have window := orderly.window
  simp only [rowsDrawn, mode] at window
  omega

/-- The window covers the screen from the start of a frame on. -/
def windowed : Video :=
  initial.performAll [.boot, .write 0xFF4B 7, .write 0xFF40 0xB1]

/-- While its first line is transferred the window has no row; after that it has as many rows as
have been drawn.
-/
theorem stays_consistent_windowed
    : windowed.Consistent
      ∧ (∃ sweep,
        (windowed.begin 252 0).Passes sweep
        ∧ sweep.video.Orderly
        ∧ sweep.video.mode = .transfer
        ∧ sweep.video.windowLine.toNat < screenHeight)
      ∧ ∃ sweep,
        (windowed.begin 252 0).Passes sweep
        ∧ sweep.video.Orderly
        ∧ sweep.video.windowLine.toNat = 1
        ∧ sweep.video.rowsDrawn = 1 := by
  let scanned := (windowed.begin 252 0).spend.leaveMode
  have consistent :=
    stays_consistent [.boot, .write 0xFF4B 7, .write 0xFF40 0xB1]
  have first : (windowed.begin 252 0).Passes scanned := .leave .start (by decide)
  have second : (windowed.begin 252 0).Passes scanned.spend.leaveMode := first.leave (by decide)
  obtain ⟨orderly, before⟩ := consistent.2 252 0 scanned (by decide) first
  obtain ⟨drawn, -⟩ := consistent.2 252 0 scanned.spend.leaveMode (by decide) second
  exact ⟨consistent.1, ⟨scanned, first, orderly, rfl, before rfl⟩,
    scanned.spend.leaveMode, second, drawn, by decide, by decide⟩

end Video

end Handheld
