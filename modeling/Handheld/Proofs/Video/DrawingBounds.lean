import Handheld.Proofs.Video.Latch

/-! Where drawing a line reads and writes. Background and window stay within video memory and the
picture whatever the registers hold. The row of an object lies within the object as long as the
objects were not made short after the line's objects were found; otherwise it can lie in the
next tile, or before the object when that is flipped.
-/

namespace Handheld

-----------------------------------------------------------------------------------------
-- The size of a picture
-----------------------------------------------------------------------------------------

namespace Picture

/-- Where the components of a pixel begin among those of a picture. -/
def offset (x y : Nat) : Nat :=
  (y * screenWidth + x) * 4

/-- Each pixel of a row adds four components, by induction on the pixels. -/
theorem size_foldl_pixels (pixels : List Pixel) (out : ByteArray)
    : (pixels.foldl (fun out pixel => pixel.components.foldl .push out) out).size
      = out.size + pixels.length * 4 := by
  induction pixels generalizing out with
  | nil => rfl
  | cons pixel rest ih =>
      rw [List.foldl_cons, ih, List.length_cons]
      simp only [Pixel.components, List.foldl_cons, List.foldl_nil, ByteArray.size_push]
      omega

/-- Each row adds the components of all its pixels, by induction on the rows. -/
theorem size_foldl_rows (rows : List PixelRow) (out : ByteArray)
    : (rows.foldl
        (fun out row =>
          row.foldl (fun out pixel => pixel.components.foldl .push out) out) out).size
      = out.size + rows.length * (screenWidth * 4) := by
  induction rows generalizing out with
  | nil => rfl
  | cons row rest ih =>
      rw [List.foldl_cons, ih, List.length_cons, ← Vector.foldl_toList, size_foldl_pixels,
        Vector.length_toList, Nat.add_mul, Nat.one_mul, Nat.add_assoc,
        Nat.add_comm (screenWidth * 4)]

/-- A picture has four components for each of its pixels. -/
theorem size_bytes (picture : Picture)
    : picture.bytes.size = screenHeight * (screenWidth * 4) := by
  rw [bytes, ← Vector.foldl_toList, size_foldl_rows, Vector.length_toList]
  rfl

/-- The components of a pixel on the screen lie within the picture. -/
theorem offset_add_four_le {x y : Nat} (column : x < screenWidth) (row : y < screenHeight)
    (picture : Picture)
    : offset x y + 4 ≤ picture.bytes.size := by
  have width : screenWidth = 160 := rfl
  have height : screenHeight = 144 := rfl
  rw [size_bytes, offset, width, height]
  omega

end Picture

namespace Video

-----------------------------------------------------------------------------------------
-- Background and window
-----------------------------------------------------------------------------------------

/-- What a point of a map needs lies in video memory: its tile number, and the point's row of
every tile that the number can name.
-/
def PointInMemory (video : Video) (point : MapPoint) : Prop :=
  point.index < 0x2000 ∧ ∀ tile, video.patternIndex tile point + 1 < 0x2000

/-- The patterns of tiles end before the maps begin. -/
theorem patternIndex_lt (video : Video) (tile : UInt8) (point : MapPoint)
    : video.patternIndex tile point + 1 < 0x1800 := by
  have number := tile.toNat_lt
  have shifted := (tile + 128).toNat_lt
  unfold patternIndex tileBase
  split <;> omega

/-- A map starts at one of two places. -/
theorem mapBase_le (video : Video) (bit : UInt8)
    : video.mapBase bit ≤ 0x1C00 := by
  unfold mapBase
  split <;> decide

/-- Points within the first 256 columns and rows of a map lie in memory. -/
theorem pointInMemory {video : Video} {point : MapPoint} (base : point.base ≤ 0x1C00)
    (column : point.x < 256) (row : point.y < 256)
    : video.PointInMemory point := by
  refine ⟨?_, fun tile => ?_⟩
  · unfold MapPoint.index
    omega
  · have := video.patternIndex_lt tile point
    omega

/-- All that is read and written to draw the line apart from its objects lies in memory, and in
the picture.
-/
structure BackdropInMemory (video : Video) : Prop where
  background : ∀ x, x < screenWidth → video.PointInMemory (video.backgroundPoint x)
  window : video.windowOn → ∀ x, video.windowStart ≤ x → x < screenWidth
    → video.PointInMemory (video.windowPoint x)
  edge : video.windowOn → video.windowStart < screenWidth
  pixels : ∀ x, x < screenWidth
    → Picture.offset x video.line.toNat + 4 ≤ video.drawing.bytes.size

/-- A line on the screen has its background and window in memory. -/
theorem backdropInMemory {video : Video} (onScreen : video.line.toNat < screenHeight)
    : video.BackdropInMemory where
  background x _ := by
    refine pointInMemory (video.mapBase_le 0x08) ?_ ?_
    · exact Nat.mod_lt _ (by decide)
    · exact Nat.mod_lt _ (by decide)
  window on x _ column := by
    refine pointInMemory (video.mapBase_le 0x40) ?_ video.windowLine.toNat_lt
    have width : screenWidth = 160 := rfl
    change x + 7 - video.windowX.toNat < 256
    omega
  edge on := by
    have right : video.windowX ≤ 166 := by
      simp only [windowOn, Bool.and_eq_true, decide_eq_true_eq] at on
      exact on.2
    have number : video.windowX.toNat ≤ 166 := right
    have width : screenWidth = 160 := rfl
    unfold windowStart
    omega
  pixels x column := Picture.offset_add_four_le column onScreen video.drawing

-----------------------------------------------------------------------------------------
-- Objects
-----------------------------------------------------------------------------------------

/-- The row of an object that is drawn lies within the object. -/
def RowInSprite (video : Video) (sprite : Sprite) : Prop :=
  0 ≤ video.spriteRow sprite ∧ video.spriteRow sprite < video.spriteHeight

/-- The planes of an object's row lie in video memory. -/
def SpriteInMemory (video : Video) (sprite : Sprite) : Prop :=
  0 ≤ video.spriteAddress sprite ∧ video.spriteAddress sprite + 1 < 0x2000

/-- An object is drawn upside down. -/
def Flipped (sprite : Sprite) : Prop :=
  sprite.attributes &&& 0x40 ≠ 0

/-- Counted from either end, the row lies within the object when the object has a row on the
line.
-/
theorem rowInSprite_iff {video : Video} {sprite : Sprite}
    : video.RowInSprite sprite ↔ video.touchesLine sprite := by
  rw [touchesLine_iff]
  unfold RowInSprite spriteRow
  dsimp only
  split <;> omega

/-- The row of an object near the line lies outside the object when that is short and begins
eight rows above the line or more.
-/
theorem not_rowInSprite_iff {video : Video} {sprite : Sprite}
    (near : sprite.y ≤ video.line.toNat ∧ video.line.toNat < sprite.y + 16)
    : ¬video.RowInSprite sprite
      ↔ video.spriteHeight = 8 ∧ sprite.y + 8 ≤ video.line.toNat := by
  rw [rowInSprite_iff, touchesLine_iff]
  rcases video.spriteHeight_eq with short | tall
  · omega
  · omega

/-- It is negative when the object is flipped, too. -/
theorem spriteRow_neg_iff {video : Video} {sprite : Sprite}
    (near : sprite.y ≤ video.line.toNat ∧ video.line.toNat < sprite.y + 16)
    : video.spriteRow sprite < 0 ↔ ¬video.RowInSprite sprite ∧ Flipped sprite := by
  rw [not_rowInSprite_iff near]
  have height := video.spriteHeight_eq
  unfold spriteRow Flipped
  by_cases flipped : sprite.attributes &&& 0x40 = 0
  · simp only [flipped, bne_self_eq_false, Bool.false_eq_true, if_false, ne_eq, not_true_eq_false,
      and_false, iff_false]
    omega
  · simp only [bne_iff_ne, ne_eq, flipped, not_false_eq_true, if_true, and_true]
    omega

/-- Whatever its tile, the planes of such an object's row end within video memory. -/
theorem spriteAddress_lt {video : Video} {sprite : Sprite}
    (near : sprite.y ≤ video.line.toNat ∧ video.line.toNat < sprite.y + 16)
    : video.spriteAddress sprite + 1 < 0x2000 := by
  have most : video.spriteRow sprite < 16 := by
    have height := video.spriteHeight_eq
    unfold spriteRow
    dsimp only
    split <;> omega
  have number (tile : UInt8) : tile.toNat < 256 := tile.toNat_lt
  unfold spriteAddress
  dsimp only
  generalize (if video.spriteHeight = 16 then sprite.tile &&& 0xFE else sprite.tile) = tile
  have := number tile
  omega

/-- So they lie outside of it just when they begin before it. -/
theorem not_spriteInMemory_iff {video : Video} {sprite : Sprite}
    (near : sprite.y ≤ video.line.toNat ∧ video.line.toNat < sprite.y + 16)
    : ¬video.SpriteInMemory sprite ↔ video.spriteAddress sprite < 0 := by
  have ends := spriteAddress_lt near
  unfold SpriteInMemory
  omega

/-- A row that is not negative lies in video memory. -/
theorem spriteInMemory {video : Video} {sprite : Sprite}
    (near : sprite.y ≤ video.line.toNat ∧ video.line.toNat < sprite.y + 16)
    (least : 0 ≤ video.spriteRow sprite)
    : video.SpriteInMemory sprite := by
  refine ⟨?_, spriteAddress_lt near⟩
  unfold spriteAddress
  dsimp only
  omega

-----------------------------------------------------------------------------------------
-- Runs
-----------------------------------------------------------------------------------------

/-- None of some operations shortens the objects of a line while it is transferred. -/
def NeverShortens (video : Video) : List Action → Prop
  | [] => True
  | action :: rest => ¬video.Shortens action ∧ (video.perform action).NeverShortens rest

/-- Such operations leave the objects their rows on the line, by induction on them. -/
theorem Touching.performAll {video : Video} (touching : video.Touching) {actions : List Action}
    (kept : video.NeverShortens actions)
    : (video.performAll actions).Touching := by
  induction actions generalizing video with
  | nil => exact touching
  | cons action rest ih => exact ih (touching.perform kept.1) kept.2

/-- After power on, whatever operations follow, the latched objects are few and near. -/
theorem latched_performAll (actions : List Action)
    : (initial.performAll actions).Latched :=
  performAll_preserves (·.Latched) (fun action _ _ latched => latched.perform action)
    ⟨by decide, fun _ _ => by decide, fun _ _ => nofun⟩

/-- Drawing stays in memory. Whatever operations lead to a line being drawn, its background and
window are read from video memory, its pixels lie in the picture, and its objects are few. The
row of an object lies outside the object just when objects are short and this one begins eight
rows above the line or more. It is negative then if the object is flipped, and can lie before
video memory; every other row is read from video memory. If none of the operations since some
moment outside of a transfer shortens objects during one, then all rows lie within their
objects.
-/
theorem drawing_stays_in_memory (actions : List Action) {clocks : Nat} {requests : UInt8}
    {drawn : Video} (draws : (initial.performAll actions).Draws clocks requests drawn)
    : drawn.BackdropInMemory
      ∧ drawn.sprites.length ≤ spritesPerLine
      ∧ (∀ sprite ∈ drawn.sprites,
        (¬drawn.RowInSprite sprite
          ↔ drawn.spriteHeight = 8 ∧ sprite.y + 8 ≤ drawn.line.toNat)
        ∧ (drawn.spriteRow sprite < 0 ↔ ¬drawn.RowInSprite sprite ∧ Flipped sprite)
        ∧ (0 ≤ drawn.spriteRow sprite → drawn.SpriteInMemory sprite)
        ∧ (¬drawn.SpriteInMemory sprite ↔ drawn.spriteAddress sprite < 0))
      ∧ ∀ before later,
          actions = before ++ later
          → (initial.performAll before).mode ≠ .transfer
          → (initial.performAll before).NeverShortens later
          → ∀ sprite ∈ drawn.sprites, drawn.RowInSprite sprite ∧ drawn.SpriteInMemory sprite := by
  have latched := latched_performAll actions
  obtain ⟨few, onScreen, near⟩ := latched.draws draws
  refine ⟨backdropInMemory onScreen, few, ?_, ?_⟩
  · intro sprite member
    have close := near sprite member
    exact ⟨not_rowInSprite_iff close, spriteRow_neg_iff close, spriteInMemory close,
      not_spriteInMemory_iff close⟩
  · rintro before later rfl outside kept sprite member
    have touching : (initial.performAll before).Touching :=
      fun _ transfers => absurd transfers outside
    have after := touching.performAll kept
    rw [← performAll_append] at after
    have inside := rowInSprite_iff.mpr (after.draws latched draws sprite member)
    exact ⟨inside, spriteInMemory (near sprite member) inside.1⟩

/-- A tall object begins eight rows above the screen, and the first line is scanned. -/
def aboveScreen : List Action :=
  [.boot, .storeOam 0 8, .write 0xFF40 0x97, .advance 80 0]

/-- Then objects are made short. -/
def shortened : List Action :=
  aboveScreen ++ [.write 0xFF40 0x93]

/-- Its last row falls on the line while it is tall, and lies outside of it once objects are
short.
-/
theorem drawing_stays_in_memory_shortened
    : let object : Sprite := { x := -8, y := -8, tile := 0, attributes := 0 }
      (∃ drawn,
        (initial.performAll aboveScreen).Draws 172 0 drawn
        ∧ object ∈ drawn.sprites
        ∧ drawn.RowInSprite object)
      ∧ ∃ drawn,
        (initial.performAll shortened).Draws 172 0 drawn
        ∧ object ∈ drawn.sprites
        ∧ ¬drawn.RowInSprite object := by
  intro object
  let found := (initial.performAll [.boot, .storeOam 0 8, .write 0xFF40 0x97]).scanObjects
  have scanned : initial.performAll aboveScreen = { found with mode := .transfer } :=
    advance_scan (by decide) (by decide) (by decide) 0
  have written : initial.performAll shortened
      = (initial.performAll aboveScreen).perform (.write 0xFF40 0x93) := performAll_append ..
  have tall : (initial.performAll aboveScreen).Draws 172 0 (initial.performAll aboveScreen) := by
    rw [scanned]
    exact draws_of_transfer (by decide) rfl 0
  have short : (initial.performAll shortened).Draws 172 0 (initial.performAll shortened) := by
    rw [written, scanned]
    exact draws_of_transfer (by decide) (by decide) 0
  have latched : object ∈ (initial.performAll aboveScreen).sprites := by
    rw [scanned]
    decide +kernel
  have kept : object ∈ (initial.performAll shortened).sprites := by
    rw [written, scanned]
    decide +kernel
  have outside : (initial.performAll shortened).spriteHeight = 8
      ∧ object.y + 8 ≤ (initial.performAll shortened).line.toNat := by
    rw [written, scanned]
    decide
  have safe := (drawing_stays_in_memory aboveScreen tall).2.2.2
    [.boot, .storeOam 0 8, .write 0xFF40 0x97] [.advance 80 0] rfl (by decide) ⟨id, trivial⟩
  have rows := (drawing_stays_in_memory shortened short).2.2.1 object kept
  exact ⟨⟨_, tall, latched, (safe object latched).1⟩, ⟨_, short, kept, rows.1.mpr outside⟩⟩

end Video

end Handheld
