import Handheld.Proofs.Interrupt
import Handheld.Proofs.Video.Course

/-! The line below all objects. Memories and registers tell the colour of each of its pixels, once
it is known how many rows of the window have been shown: it is the colour of the window where that
covers the line, and of the background elsewhere. A line without objects is drawn in these colours.
-/

namespace Handheld

-----------------------------------------------------------------------------------------
-- Colours
-----------------------------------------------------------------------------------------

/-- The colour number that the two planes of a row of a tile have at a bit. -/
def tileColor (low high : UInt8) (bit : Nat) : ColorId :=
  ⟨(high.toNat.testBit bit).toNat * 2 + (low.toNat.testBit bit).toNat, by
    have upper := (high.toNat.testBit bit).toNat_le
    have lower := (low.toNat.testBit bit).toNat_le
    omega⟩

/-- The shade of a colour number in a palette, which has two bits for each, those of zero lowest. -/
def shadeOf (palette : UInt8) (color : ColorId) : Shade :=
  ⟨palette.toNat / 4 ^ color.val % 4, Nat.mod_lt _ (by decide)⟩

/-- A byte shifted to one of its bits has that bit lowest. -/
theorem toNat_shiftRight_and_one (byte : UInt8) {bit : Nat} (inByte : bit < 8)
    : (byte >>> UInt8.ofNat bit &&& 1).toNat = (byte.toNat.testBit bit).toNat := by
  have distance : (UInt8.ofNat bit).toNat % 8 = bit := by
    rw [UInt8.toNat_ofNat']
    omega
  rw [UInt8.toNat_and, UInt8.toNat_shiftRight, distance, UInt8.toNat_one, Nat.and_one_is_mod,
    Nat.shiftRight_eq_div_pow, Nat.toNat_testBit]

/-- The planes hold the two digits of the colour number. -/
theorem planeColor_eq (low high : UInt8) {bit : Nat} (inByte : bit < 8)
    : planeColor low high (UInt8.ofNat bit) = tileColor low high bit := by
  have upper := (high.toNat.testBit bit).toNat_le
  have lower := (low.toNat.testBit bit).toNat_le
  have two : (2 : UInt8).toNat = 2 := rfl
  unfold planeColor
  rw [UInt8.toNat_add, UInt8.toNat_mul, toNat_shiftRight_and_one high inByte,
    toNat_shiftRight_and_one low inByte, two, Nat.mod_eq_of_lt (by omega),
    Nat.mod_eq_of_lt (by omega)]
  exact Fin.ext (Nat.mod_eq_of_lt (by omega))

/-- Palettes are applied by shifting. -/
theorem paletteShade_eq (palette : UInt8) (color : ColorId)
    : paletteShade palette color = shadeOf palette color := by
  have inByte : color.val * 2 < 8 := by omega
  have distance : (UInt8.ofNat (color.val * 2)).toNat % 8 = color.val * 2 := by
    rw [UInt8.toNat_ofNat']
    omega
  unfold paletteShade
  rw [UInt8.toNat_shiftRight, distance, Nat.shiftRight_eq_div_pow, Nat.mul_comm, Nat.pow_mul]
  rfl

/-- A painted run shows its own colours and leaves the others, by induction on its length. -/
theorem ColorRow.getElem?_paint (color : Nat → ColorId) (count start : Nat) (row : ColorRow)
    {x : Nat} (onLine : x < screenWidth)
    : (row.paint color count start)[x]?
      = if start ≤ x ∧ x < start + count then some (color x) else row[x]? := by
  induction count generalizing start row with
  | zero => rw [paint, if_neg (by omega)]
  | succ count ih =>
      rw [paint, ih]
      by_cases first : x = start
      · subst first
        rw [if_neg (by omega), if_pos (by omega), Vector.getElem?_setIfInBounds_self_of_lt onLine]
      · have kept : (row.setIfInBounds start (color start))[x]? = row[x]? :=
          Vector.getElem?_setIfInBounds_ne (Ne.symm first)
        rw [kept]
        have same : start + 1 ≤ x ∧ x < start + 1 + count
            ↔ start ≤ x ∧ x < start + (count + 1) := by
          omega
        simp only [same]

namespace Video

-----------------------------------------------------------------------------------------
-- Background and window
-----------------------------------------------------------------------------------------

/-- Whether a bit of the control register is set. -/
def controlBit (video : Video) (bit : Nat) : Bool :=
  video.control.toNat.testBit bit

/-- Where the data of a tile of background or window starts. The number of the tile is a byte, or a
signed byte that counts from the middle block.
-/
def tileStart (video : Video) (tile : UInt8) : Nat :=
  if video.controlBit 4 then 16 * tile.toNat else (0x1000 + 16 * tile.toInt8.toInt).toNat

/-- Where the map that a bit of the control register selects starts. -/
def mapStart (video : Video) (bit : Nat) : Nat :=
  if video.controlBit bit then 0x1C00 else 0x1800

/-- The colour number of a map in a column and a row. -/
def mapColor (video : Video) (map column row : Nat) : ColorId :=
  let tile := video.vram.getOr (map + row / 8 * 32 + column / 8) 0
  let low := video.tileStart tile + row % 8 * 2
  tileColor (video.vram.getOr low 0) (video.vram.getOr (low + 1) 0) (7 - column % 8)

/-- Whether the window is drawn on the line. -/
def drawsWindow (video : Video) : Bool :=
  video.controlBit 0 && video.controlBit 5 && video.windowY.toNat ≤ video.line.toNat
    && video.windowX.toNat ≤ 166

/-- The colour number below all objects at a position of the line, with the row that the window has
come to.
-/
def colorBelow (video : Video) (windowRow x : Nat) : ColorId :=
  if video.controlBit 0 then
    if video.drawsWindow ∧ video.windowX.toNat ≤ x + 7 then
      video.mapColor (video.mapStart 6) (x + 7 - video.windowX.toNat) windowRow
    else
      video.mapColor (video.mapStart 3) ((x + video.scrollX.toNat) % 256)
        ((video.line.toNat + video.scrollY.toNat) % 256)
  else ⟨0, by decide⟩

variable {video : Video}

/-- A bit of the control register is tested with a mask. -/
theorem meets_control {mask : UInt8} {bit : Nat} (single : mask.toNat = 2 ^ bit) (video : Video)
    : (video.control &&& mask != 0) = video.controlBit bit :=
  meets_eq_testBit single video.control

/-- Signed numbers of tiles are made unsigned by counting from the first block. -/
theorem tileBase_eq (video : Video) (tile : UInt8)
    : video.tileBase tile = video.tileStart tile := by
  have unsigned : (video.control &&& 0x10 != 0) = video.controlBit 4 := meets_control rfl video
  unfold tileBase tileStart
  rw [unsigned]
  split
  · exact Nat.mul_comm tile.toNat 16
  · have signed : tile.toInt8.toInt
        = if 2 * tile.toNat < 256 then (tile.toNat : Int) else tile.toNat - 256 :=
      BitVec.toInt_eq_toNat_cond tile.toBitVec
    have shifted : (tile + 128).toNat = (tile.toNat + 128) % 256 := UInt8.toNat_add tile 128
    have number := tile.toNat_lt
    rw [signed, shifted]
    split <;> omega

/-- A point has the colour of its map. -/
theorem pointColor_eq (video : Video) (point : MapPoint)
    : video.pointColor point = video.mapColor point.base point.x point.y := by
  unfold pointColor mapColor patternIndex
  simp only [planeColor_eq _ _ (show 7 - point.x % 8 < 8 by omega), tileBase_eq]
  rfl

/-- The maps are selected by bits. -/
theorem mapBase_eq {mask : UInt8} {bit : Nat} (single : mask.toNat = 2 ^ bit) (video : Video)
    : video.mapBase mask = video.mapStart bit := by
  unfold mapBase mapStart
  rw [meets_control single]

/-- Background and window have a bit in common. -/
theorem backgroundOn_eq (video : Video)
    : video.backgroundOn = video.controlBit 0 :=
  meets_control rfl video

/-- The window is drawn where it touches the line, unless background and window are off. -/
theorem drawsWindow_eq (video : Video)
    : video.drawsWindow = (video.backgroundOn && video.windowOn) := by
  have enabled : (video.control &&& 0x20 != 0) = video.controlBit 5 := meets_control rfl video
  unfold drawsWindow windowOn
  rw [backgroundOn_eq, enabled, Bool.and_assoc, Bool.and_assoc, Bool.and_assoc]
  rfl

/-- Painting the line tells whether the window is drawn. -/
theorem backdrop_snd (video : Video)
    : video.backdrop.2 = video.drawsWindow := by
  rw [drawsWindow_eq]
  unfold backdrop
  cases video.backgroundOn <;> cases video.windowOn <;> rfl

/-- The background is painted on the whole line. -/
theorem getElem?_paintBackground (video : Video) (row : ColorRow) {x : Nat}
    (onLine : x < screenWidth)
    : (video.paintBackground row)[x]?
      = some (video.mapColor (video.mapStart 3) ((x + video.scrollX.toNat) % 256)
          ((video.line.toNat + video.scrollY.toNat) % 256)) := by
  have map : video.mapBase 0x08 = video.mapStart 3 := mapBase_eq rfl video
  unfold paintBackground
  rw [ColorRow.getElem?_paint _ _ _ _ onLine, if_pos (by omega), pointColor_eq, ← map]
  rfl

/-- The window is painted from its left edge on. -/
theorem getElem?_paintWindow (row : ColorRow) {x : Nat} (onLine : x < screenWidth)
    (on : video.windowOn)
    : (video.paintWindow row)[x]?
      = if video.windowX.toNat ≤ x + 7 then
          some (video.mapColor (video.mapStart 6) (x + 7 - video.windowX.toNat)
            video.windowLine.toNat)
        else row[x]? := by
  have map : video.mapBase 0x40 = video.mapStart 6 := mapBase_eq rfl video
  have edge : video.windowX.toNat ≤ 166 := by
    simp only [windowOn, Bool.and_eq_true, decide_eq_true_eq] at on
    exact on.2
  have covered : video.windowStart ≤ x
        ∧ x < video.windowStart + (screenWidth - video.windowStart)
      ↔ video.windowX.toNat ≤ x + 7 := by
    unfold windowStart
    omega
  unfold paintWindow
  rw [ColorRow.getElem?_paint _ _ _ _ onLine, pointColor_eq, ← map]
  simp only [covered]
  rfl

/-- The colours painted for the line are those of the window and the background. -/
theorem getElem?_backdrop (video : Video) {x : Nat} (onLine : x < screenWidth)
    : video.backdrop.1[x]? = some (video.colorBelow video.windowLine.toNat x) := by
  have drawn := video.drawsWindow_eq
  unfold backdrop colorBelow
  rw [← backgroundOn_eq]
  cases background : video.backgroundOn with
  | false => exact Vector.getElem?_replicate_of_lt onLine
  | true =>
      rw [background, Bool.true_and] at drawn
      cases window : video.windowOn with
      | false =>
          simp only [drawn, window, if_true, Bool.false_eq_true, false_and, if_false]
          exact video.getElem?_paintBackground _ onLine
      | true =>
          simp only [drawn, window, if_true, true_and]
          rw [getElem?_paintWindow _ onLine window, video.getElem?_paintBackground _ onLine]
          split <;> rfl

-----------------------------------------------------------------------------------------
-- The rows of the window
-----------------------------------------------------------------------------------------

/-- The line register goes back to the first line. -/
def LineEvent.isRestart : LineEvent → Bool
  | .restarted => true
  | .scanned _ | .drawn _ => false

/-- A line is drawn that shows the window. -/
def LineEvent.showsWindow : LineEvent → Bool
  | .drawn video => video.drawsWindow
  | .scanned _ | .restarted => false

/-- On how many lines the window has been drawn since the first line was begun. -/
def windowRows (history : List LineEvent) : Nat :=
  (history.takeWhile (!·.isRestart)).countP (·.showsWindow)

/-- A line that shows the window adds a row. -/
@[simp]
theorem windowRows_drawn (video : Video) (history : List LineEvent)
    : windowRows (.drawn video :: history)
      = windowRows history + if video.drawsWindow then 1 else 0 :=
  List.countP_cons

variable {actions : List Action} {history : List LineEvent}

/-- The window comes to its next row as a line is drawn that shows it, and is without rows when the
first line is begun, by cases of the mode that is left.
-/
theorem windowLine_leaveMode {sweep : Sweep} (orderly : sweep.video.Orderly)
    (on : sweep.video.lcdOn) {earlier : List LineEvent}
    (counted : sweep.video.windowLine.toNat = windowRows earlier)
    : sweep.leaveMode.video.windowLine.toNat
      = windowRows (sweep.video.eventsOfLeaving ++ earlier) := by
  cases mode : sweep.video.mode with
  | oamScan =>
      rw [sweep.leaveMode_oamScan mode, eventsOfLeaving, mode]
      exact counted
  | transfer =>
      have visible := orderly.onScreen (by simp [mode])
      have window := orderly.window
      simp only [rowsDrawn, mode] at window
      have height : screenHeight = 144 := rfl
      have one : (1 : UInt8).toNat = 1 := rfl
      -- the window has at most as many rows as lines have been drawn, so the register does not wrap
      have next : (sweep.video.windowLine + 1).toNat = sweep.video.windowLine.toNat + 1 := by
        rw [UInt8.toNat_add, one, Nat.mod_eq_of_lt (by omega)]
      rw [sweep.leaveMode_transfer mode, sweep.video.drawLine_of_onScreen on visible,
        eventsOfLeaving, mode]
      simp only [Sweep.video_enter, backdrop_snd, List.singleton_append, windowRows_drawn,
        ← counted]
      split
      · exact next
      · rfl
  | hblank =>
      rw [eventsOfLeaving, mode]
      by_cases last : sweep.video.line + 1 = 144
      · rw [sweep.leaveMode_hblank_last mode last]
        exact counted
      · rw [sweep.leaveMode_hblank_next mode last]
        exact counted
  | vblank =>
      rw [eventsOfLeaving, mode]
      by_cases last : sweep.video.line = 153
      · rw [sweep.leaveMode_vblank_last mode last, if_pos last]
        rfl
      · rw [sweep.leaveMode_vblank_next mode last, if_neg last]
        exact counted

/-- The register for the row of the window counts the lines that showed it, by induction on the
course.
-/
theorem Course.windowLine_eq (course : Course actions history video)
    : video.windowLine.toNat = windowRows history := by
  induction course with
  | powerOn => rfl
  | perform before rests still ih =>
      rcases perform_cases before.orderly.2 still with ⟨restarts, starts⟩ | ⟨goesOn, keeps⟩
      · rw [eventsOf, restarts, starts.window]
        rfl
      · rw [eventsOf, goesOn, keeps.window]
        exact ih
  | begin _ _ _ ih => exact ih
  | @leave _ _ sweep before due ih =>
      obtain ⟨line, blanking, window, few, drawing, completed⟩ := before.orderly.1
      have spent : sweep.spend.video.Orderly := ⟨line, blanking, window, few, drawing, completed⟩
      exact windowLine_leaveMode spent (before.on_of_due due) ih

-----------------------------------------------------------------------------------------
-- Drawing
-----------------------------------------------------------------------------------------

/-- A line without objects has the shades of the colours below them. -/
theorem getElem?_lineRow_of_spritesOff (plain : video.spritesOn = false) {x : Nat}
    (onLine : x < screenWidth)
    : (video.lineRow video.backdrop.1)[x]?
      = some (.ofShade (shadeOf video.backgroundPalette
          (video.colorBelow video.windowLine.toNat x))) := by
  unfold lineRow
  rw [plain]
  simp only [Bool.false_eq_true, if_false, Vector.getElem?_map, video.getElem?_backdrop onLine,
    Option.map_some, paletteShade_eq]

/-- A line without objects is drawn in the colours of background and window, and the other lines of
the picture are left alone. In a course that leads to it, the window has come to the row that counts
the lines which have shown it since the first line was begun.
-/
theorem line_without_objects_drawn (actions : List Action) {clocks : Nat} {requests : UInt8}
    {sweep : Sweep} (ends : TransferEnds actions clocks requests sweep)
    (plain : sweep.video.spritesOn = false)
    : let video := sweep.video
      let after := sweep.spend.leaveMode.video
      (∃ history, Course (actions ++ [.advance clocks requests]) history video)
      ∧ (∀ history,
        Course (actions ++ [.advance clocks requests]) history video
        → ∀ x < screenWidth,
            after.drawing.pixel? x video.line.toNat
            = some (.ofShade (shadeOf video.backgroundPalette
                (video.colorBelow (windowRows history) x))))
      ∧ ∀ row : Nat, row ≠ video.line.toNat → after.drawing[row]? = video.drawing[row]? := by
  obtain ⟨drawn, others⟩ := ends.draws
  refine ⟨ends.course, ?_, others⟩
  intro history course x onLine
  rw [drawn, getElem?_lineRow_of_spritesOff plain onLine, course.windowLine_eq]

/-- The window covers the screen, and its second row begins with a point. -/
def dotted : List Action :=
  [.boot, .write 0xFF4B 7, .write 0xFF40 0xB1, .storeVram 2 0x80]

/-- The second line shows the second row of the window, after one line that showed the first. -/
theorem line_without_objects_drawn_dotted
    : ∃ sweep history,
        TransferEnds dotted 708 0 sweep
        ∧ sweep.video.spritesOn = false
        ∧ Course (dotted ++ [.advance 708 0]) history sweep.video
        ∧ windowRows history = 1
        ∧ sweep.spend.leaveMode.video.drawing.pixel? 0 1 = some .black := by
  let start := (initial.performAll dotted).begin 708 0
  let drawn := start.spend.leaveMode.spend.leaveMode
  let sweep := drawn.spend.leaveMode.spend.leaveMode
  have first : start.Passes drawn := (Sweep.Passes.leave .start (by decide)).leave (by decide)
  have second : start.Passes sweep := (first.leave (by decide)).leave (by decide)
  have ends : TransferEnds dotted 708 0 sweep := ⟨by decide, second, by decide, by decide⟩
  have plain : sweep.video.spritesOn = false := by decide
  obtain ⟨⟨history, course⟩, shown, -⟩ := line_without_objects_drawn dotted ends plain
  have rows : windowRows history = 1 := by
    rw [← course.windowLine_eq]
    decide
  have line : sweep.video.line.toNat = 1 := by decide
  have color : sweep.video.colorBelow 1 0 = 1 := by decide +kernel
  have palette : sweep.video.backgroundPalette = 0xFC := by decide
  have dot := shown history course 0 (by decide)
  rw [line, rows, color, palette] at dot
  exact ⟨sweep, history, ends, plain, course, rows, dot⟩

end Video

end Handheld
