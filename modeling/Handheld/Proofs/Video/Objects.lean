import Handheld.Proofs.Video.DrawingBounds
import Handheld.Proofs.Video.DrawingOrder

/-! Lines with objects. The objects are painted one after another, and each of them claims the
positions where it is not transparent, even those where it hides. So the first one that claims a
position is seen there, or hides, and the line has the pixels that object memory tells.
-/

namespace Handheld

-----------------------------------------------------------------------------------------
-- Positions of a canvas
-----------------------------------------------------------------------------------------

/-- A row with one position set. -/
theorem get_set_eq_ite {α : Type} {size : Nat} (row : Vector α size) (position x : Fin size)
    (value : α)
    : (row.set position.val value position.isLt).get x
      = if position = x then value else row.get x := by
  have found : (row.set position.val value position.isLt).get x
      = if position.val = x.val then value else row.get x :=
    Vector.getElem_set position.isLt x.isLt
  simp only [found, Fin.ext_iff]

/-- A position of the line while objects are painted. -/
structure Spot where
  pixel : Pixel
  claimed : Bool

/-- A position of the canvas. -/
def Canvas.spot (canvas : Canvas) (x : Fin screenWidth) : Spot :=
  ⟨canvas.pixels.get x, canvas.claimed.get x⟩

/-- The position claimed for a pixel, which may hide. A position is claimed only once. -/
def Spot.claim (spot : Spot) (hidden : Bool) (pixel : Pixel) : Spot :=
  if spot.claimed then spot else ⟨if hidden then spot.pixel else pixel, true⟩

/-- Claims after the first have no effect. -/
@[simp]
theorem Spot.claim_claim (spot : Spot) (hidden later : Bool) (pixel other : Pixel)
    : (spot.claim hidden pixel).claim later other = spot.claim hidden pixel := by
  have claimed : (spot.claim hidden pixel).claimed = true := by
    unfold claim
    split
    · assumption
    · rfl
  rw [claim, if_pos claimed]

namespace Video

variable {video : Video}

-----------------------------------------------------------------------------------------
-- Objects read from memory
-----------------------------------------------------------------------------------------

/-- An attribute of an object is tested with a mask. -/
theorem meets_attributes {mask : UInt8} {bit : Nat} (single : mask.toNat = 2 ^ bit)
    (video : Video) (object : Nat)
    : ((video.spriteAt object).attributes &&& mask != 0) = video.objectFlag object bit :=
  meets_eq_testBit single _

/-- The row painted of an object on the line is its row there. -/
theorem spriteRow_spriteAt {object : Nat} (onLine : video.onLine object)
    : video.spriteRow (video.spriteAt object) = video.objectRow object := by
  have flipped : ((video.spriteAt object).attributes &&& 0x40 != 0)
      = video.objectFlag object 6 :=
    meets_attributes rfl video object
  have top : (video.spriteAt object).y = (video.objectByte object 0).toNat - 16 := rfl
  simp only [Video.onLine, Bool.and_eq_true, decide_eq_true_eq] at onLine
  have height := video.spriteHeight_eq
  unfold spriteRow objectRow
  rw [flipped, top]
  dsimp only
  split <;> omega

/-- Its planes are read from its tile. -/
theorem spriteAddress_spriteAt {object : Nat} (onLine : video.onLine object)
    : video.spriteAddress (video.spriteAt object)
      = (16 * (video.objectTile object).toNat + 2 * video.objectRow object : Nat) := by
  have tile : (if video.spriteHeight = 16 then (video.spriteAt object).tile &&& 0xFE
      else (video.spriteAt object).tile) = video.objectTile object := rfl
  unfold spriteAddress
  dsimp only
  rw [tile, spriteRow_spriteAt onLine]
  omega

/-- The planes of a row in memory are the bytes at its address. -/
theorem spritePlanes?_of_inMemory {sprite : Sprite} {address : Nat}
    (place : video.spriteAddress sprite = address) (inMemory : video.SpriteInMemory sprite)
    : video.spritePlanes? sprite
      = some (video.vram.getOr address 0, video.vram.getOr (address + 1) 0) := by
  have ends : address + 1 < 0x2000 := by
    have := inMemory.2
    omega
  unfold spritePlanes?
  rw [place]
  simp only [Memory.getOr, ends, Nat.lt_of_succ_lt ends, dif_pos]

-----------------------------------------------------------------------------------------
-- Painting
-----------------------------------------------------------------------------------------

/-- A pixel painted at a free position claims it, and leaves the other positions alone. -/
theorem spot_paintOpaque (palette : UInt8) (behind : Bool) (color : ColorId) (below : ColorRow)
    {canvas : Canvas} {position : Fin screenWidth} (free : canvas.claimed.get position = false)
    (x : Fin screenWidth)
    : (paintOpaque palette behind color below canvas position).spot x
      = if position = x then
          (canvas.spot x).claim (behind && below.get x != 0)
            (.ofShade (paletteShade palette color))
        else canvas.spot x := by
  have painted : paintOpaque palette behind color below canvas position
      = if behind && below.get position != 0 then
          { canvas with claimed := canvas.claimed.set position.val true position.isLt }
        else
          { pixels := canvas.pixels.set position.val (.ofShade (paletteShade palette color))
              position.isLt
            claimed := canvas.claimed.set position.val true position.isLt } := rfl
  rw [painted]
  by_cases here : position = x
  · subst here
    have unclaimed : (canvas.spot position).claimed = false := free
    rw [if_pos rfl, Spot.claim, unclaimed]
    split <;> simp [Canvas.spot, get_set_eq_ite, *]
  · rw [if_neg here]
    split <;> simp [Canvas.spot, get_set_eq_ite, here]

/-- So does one painted at any position, unless the position has been claimed already or the pixel
is transparent.
-/
theorem spot_paintFree (palette : UInt8) (behind : Bool) (color : ColorId) (below : ColorRow)
    (canvas : Canvas) (position x : Fin screenWidth)
    : (if canvas.claimed.get position then canvas
        else if color = 0 then canvas
        else paintOpaque palette behind color below canvas position).spot x
      = if position = x ∧ color ≠ 0 then
          (canvas.spot x).claim (behind && below.get x != 0)
            (.ofShade (paletteShade palette color))
        else canvas.spot x := by
  split
  case isTrue claimed =>
    split
    case isTrue painted =>
      obtain ⟨rfl, -⟩ := painted
      exact (if_pos claimed).symm
    case isFalse => rfl
  case isFalse free =>
    by_cases transparent : color = 0
    · rw [if_pos transparent, if_neg fun painted => painted.2 transparent]
    · rw [if_neg transparent,
        spot_paintOpaque palette behind color below (Bool.eq_false_of_not_eq_true free)]
      simp only [transparent, ne_eq, not_false_eq_true, and_true]

/-- The colour number of an object's column, from the planes of its row. -/
def columnColor (sprite : Sprite) (low high : UInt8) (column : Nat) : ColorId :=
  planeColor low high
    (UInt8.ofNat (if sprite.attributes &&& 0x20 != 0 then column else 7 - column))

/-- Columns are painted one after another. -/
theorem paintColumns_cons (sprite : Sprite) (palette low high : UInt8) (below : ColorRow)
    (column : Nat) (rest : List Nat) (canvas : Canvas)
    : paintColumns sprite palette low high below (column :: rest) canvas
      = paintColumns sprite palette low high below rest
          (paintColumns sprite palette low high below [column] canvas) :=
  rfl

/-- A column that is not transparent claims the position on which it lies. -/
theorem spot_paintColumn (sprite : Sprite) (palette low high : UInt8) (below : ColorRow)
    (column : Nat) (canvas : Canvas) (x : Fin screenWidth)
    : (paintColumns sprite palette low high below [column] canvas).spot x
      = if sprite.x + column = x.val ∧ columnColor sprite low high column ≠ 0 then
          (canvas.spot x).claim (sprite.attributes &&& 0x80 != 0 && below.get x != 0)
            (.ofShade (paletteShade palette (columnColor sprite low high column)))
        else canvas.spot x := by
  have width : screenWidth = 160 := rfl
  have onLine := x.isLt
  simp only [paintColumns]
  split
  case isTrue onScreen =>
    let position : Fin screenWidth := ⟨(sprite.x + column).toNat, by omega⟩
    have lands : position = x ↔ sprite.x + column = x.val := by
      rw [Fin.ext_iff]
      change (sprite.x + column).toNat = x.val ↔ _
      omega
    simp only [← lands]
    exact spot_paintFree palette _ (columnColor sprite low high column) below canvas position x
  case isFalse offScreen =>
    rw [if_neg]
    rintro ⟨lands, -⟩
    omega

/-- Columns claim the position on which one of them lies, unless it is transparent, by induction on
the columns.
-/
theorem spot_paintColumns (sprite : Sprite) (palette low high : UInt8) (below : ColorRow)
    (columns : List Nat) (canvas : Canvas) (x : Fin screenWidth)
    : (paintColumns sprite palette low high below columns canvas).spot x
      = if ∃ column ∈ columns,
            sprite.x + column = x.val ∧ columnColor sprite low high column ≠ 0 then
          (canvas.spot x).claim (sprite.attributes &&& 0x80 != 0 && below.get x != 0)
            (.ofShade (paletteShade palette
              (columnColor sprite low high (x.val - sprite.x).toNat)))
        else canvas.spot x := by
  induction columns generalizing canvas with
  | nil => rw [paintColumns, if_neg (by simp)]
  | cons column rest ih =>
      rw [paintColumns_cons, ih, spot_paintColumn]
      simp only [List.mem_cons, exists_eq_or_imp]
      by_cases here : sprite.x + column = x.val ∧ columnColor sprite low high column ≠ 0
      · have same : (x.val - sprite.x).toNat = column := by omega
        rw [if_pos here, same, Spot.claim_claim, ite_self, if_pos (Or.inl here)]
      · simp only [here, if_false, false_or]

/-- A position has a column of an object when the object covers it. -/
theorem covers_iff {x object : Nat}
    : video.covers x object
      ↔ ∃ column < 8, (video.spriteAt object).x + (column : Nat) = x := by
  have left : (video.spriteAt object).x = (video.objectByte object 1).toNat - 8 := rfl
  simp only [left, covers, Bool.and_eq_true, decide_eq_true_eq]
  constructor
  · rintro ⟨first, last⟩
    exact ⟨x + 8 - (video.objectByte object 1).toNat, by omega, by omega⟩
  · rintro ⟨column, inside, lands⟩
    omega

/-- The column is told apart by a bit of the planes. -/
theorem columnColor_spriteAt {x object column : Nat} (inside : column < 8)
    (lands : (video.spriteAt object).x + column = x)
    : columnColor (video.spriteAt object) (video.objectPlane object 0)
          (video.objectPlane object 1) column
      = video.objectColor x object := by
  have left : (video.spriteAt object).x = (video.objectByte object 1).toNat - 8 := rfl
  have flipped : ((video.spriteAt object).attributes &&& 0x20 != 0)
      = video.objectFlag object 5 :=
    meets_attributes rfl video object
  have same : x + 8 - (video.objectByte object 1).toNat = column := by omega
  unfold columnColor objectColor objectBit
  rw [flipped, same]
  split
  · exact planeColor_eq _ _ inside
  · exact planeColor_eq _ _ (by omega)

/-- A colour number is another than zero when its digits say so. -/
theorem bne_zero_eq (color : ColorId)
    : (color != 0) = (color.val != 0) := by
  decide +revert

/-- An object is solid where one of its columns is not transparent. -/
theorem solidAt_iff {x object : Nat}
    : video.solidAt x object
      ↔ ∃ column < 8,
          (video.spriteAt object).x + (column : Nat) = x
          ∧ columnColor (video.spriteAt object) (video.objectPlane object 0)
            (video.objectPlane object 1) column ≠ 0 := by
  simp only [solidAt, ← bne_zero_eq, Bool.and_eq_true, bne_iff_ne, covers_iff]
  constructor
  · rintro ⟨⟨column, inside, lands⟩, colored⟩
    exact ⟨column, inside, lands, by rwa [columnColor_spriteAt inside lands]⟩
  · rintro ⟨column, inside, lands, colored⟩
    exact ⟨⟨column, inside, lands⟩, by rwa [columnColor_spriteAt inside lands] at colored⟩

/-- An object on the line has its planes in memory. -/
theorem spritePlanes?_spriteAt {object : Nat} (onLine : video.onLine object)
    : video.spritePlanes? (video.spriteAt object)
      = some (video.objectPlane object 0, video.objectPlane object 1) := by
  have touches : video.touchesLine (video.spriteAt object) :=
    (video.touchesLine_spriteAt object).trans onLine
  exact spritePlanes?_of_inMemory (spriteAddress_spriteAt onLine)
    (spriteInMemory (near_of_touchesLine touches) (rowInSprite_iff.mpr touches).1)

/-- An object on the line claims the positions where it is solid. -/
theorem spot_paintSprite {object : Nat} (onLine : video.onLine object) {below : ColorRow}
    {x : Fin screenWidth} {windowRow : Nat} (known : below.get x = video.colorBelow windowRow x)
    (canvas : Canvas)
    : (video.paintSprite below canvas (video.spriteAt object)).spot x
      = if video.solidAt x object then
          (canvas.spot x).claim (video.hiddenAt windowRow x object) (video.objectPixel x object)
        else canvas.spot x := by
  have behind : ((video.spriteAt object).attributes &&& 0x80 != 0)
      = video.objectFlag object 7 :=
    meets_attributes rfl video object
  have second : ((video.spriteAt object).attributes &&& 0x10 != 0)
      = video.objectFlag object 4 :=
    meets_attributes rfl video object
  have hides : (video.colorBelow windowRow x != 0) = ((video.colorBelow windowRow x).val != 0) :=
    bne_zero_eq _
  unfold paintSprite
  rw [spritePlanes?_spriteAt onLine]
  simp only [spot_paintColumns, behind, second, known, hides, paletteShade_eq, List.mem_range,
    ← solidAt_iff]
  split
  case isTrue solid =>
    obtain ⟨column, inside, lands, -⟩ := solidAt_iff.mp solid
    have same : (x.val - (video.spriteAt object).x).toNat = column := by omega
    rw [same, columnColor_spriteAt inside lands]
    rfl
  case isFalse => rfl

/-- Objects on the line leave each position to the first of them that is solid there, by induction
on the objects.
-/
theorem spot_foldl_paintSprite {order : List Nat} (onLine : ∀ object ∈ order, video.onLine object)
    {below : ColorRow} {x : Fin screenWidth} {windowRow : Nat}
    (known : below.get x = video.colorBelow windowRow x) (canvas : Canvas)
    : ((order.map video.spriteAt).foldl (video.paintSprite below) canvas).spot x
      = (order.find? (video.solidAt x)).elim (canvas.spot x) fun object =>
          (canvas.spot x).claim (video.hiddenAt windowRow x object)
            (video.objectPixel x object) := by
  induction order generalizing canvas with
  | nil => rfl
  | cons object rest ih =>
      have there := onLine object List.mem_cons_self
      have others : ∀ other ∈ rest, video.onLine other :=
        fun other member => onLine other (List.mem_cons_of_mem _ member)
      rw [List.map_cons, List.foldl_cons, ih others, spot_paintSprite there known]
      cases solid : video.solidAt x object with
      | true =>
          -- whichever object comes later, it finds the position claimed
          rw [List.find?_cons_of_pos solid, if_pos rfl]
          cases rest.find? (video.solidAt x) with
          | none => rfl
          | some other => exact Spot.claim_claim ..
      | false =>
          rw [List.find?_cons_of_neg (by simp [solid]), if_neg Bool.false_ne_true]

/-- The colours below all objects, at a position. -/
theorem get_backdrop (video : Video) (x : Fin screenWidth)
    : video.backdrop.1.get x = video.colorBelow video.windowLine.toNat x :=
  Option.some.inj
    ((Vector.getElem?_eq_getElem x.isLt).symm.trans (video.getElem?_backdrop x.isLt))

/-- The line before any object is painted. -/
def unpainted (video : Video) : Canvas :=
  { pixels := video.backdrop.1.map fun color =>
      .ofShade (paletteShade video.backgroundPalette color)
    claimed := Vector.replicate screenWidth false }

/-- All of its positions are free. -/
theorem spot_unpainted (video : Video) (x : Fin screenWidth)
    : video.unpainted.spot x = ⟨video.pixelBelow video.windowLine.toNat x, false⟩ := by
  have pixel : video.unpainted.pixels.get x
      = .ofShade (paletteShade video.backgroundPalette (video.backdrop.1.get x)) :=
    Vector.getElem_map _ x.isLt
  have claimed : video.unpainted.claimed.get x = false := Vector.getElem_replicate x.isLt
  rw [Canvas.spot, pixel, claimed, get_backdrop, paletteShade_eq]
  rfl

/-- A line with objects has the pixels that object memory tells. -/
theorem getElem?_lineRow_of_spritesOn (on : video.spritesOn)
    (latched : video.sprites = video.scanObjects.sprites) {x : Nat} (onLine : x < screenWidth)
    : (video.lineRow video.backdrop.1)[x]?
      = some (video.linePixel video.windowLine.toNat x) := by
  obtain ⟨order, sorted, perm, ordered⟩ := video.exists_drawing_order
  have touching : ∀ object ∈ order, video.onLine object := by
    intro object member
    have listed := List.mem_of_mem_take (perm.mem_iff.mp member)
    exact (List.mem_filter.mp listed).2
  let position : Fin screenWidth := ⟨x, onLine⟩
  have row : (video.lineRow video.backdrop.1)[x]?
      = some (((order.map video.spriteAt).foldl (video.paintSprite video.backdrop.1)
          video.unpainted).spot position).pixel := by
    unfold lineRow paintSprites
    rw [if_pos on, latched, sorted]
    exact Vector.getElem?_eq_getElem onLine
  rw [row, spot_foldl_paintSprite touching (video.get_backdrop position), spot_unpainted,
    ← frontObject?_eq perm ordered]
  unfold linePixel
  cases video.frontObject? x with
  | none => rfl
  | some object => rfl

-----------------------------------------------------------------------------------------
-- Drawing
-----------------------------------------------------------------------------------------

/-- The same objects are found as long as object memory, control register and line are the same. -/
theorem sprites_scanObjects_congr {other : Video} (line : other.line = video.line)
    (control : other.control = video.control) (oam : other.oam = video.oam)
    : other.scanObjects.sprites = video.scanObjects.sprites := by
  have height : other.spriteHeight = video.spriteHeight := by
    unfold spriteHeight
    rw [control]
  have objects : other.spriteAt = video.spriteAt := by
    unfold spriteAt
    rw [oam]
  have touching : other.touchesLine = video.touchesLine := by
    unfold touchesLine
    rw [line, height]
  unfold scanObjects visibleSprites
  rw [objects, touching]

/-- A line with objects is drawn as object memory tells, as long as neither that nor the control
register have changed since the objects of the line were found. Each position goes to the object in
front among those that are solid there, unless it hides behind the line below; where there is none
the line below is seen.
-/
theorem line_with_objects_drawn (actions : List Action) {clocks : Nat} {requests : UInt8}
    {sweep : Sweep} (ends : TransferEnds actions clocks requests sweep)
    (on : sweep.video.spritesOn)
    : let video := sweep.video
      let after := sweep.spend.leaveMode.video
      (∃ history scanned,
        Course (actions ++ [.advance clocks requests]) history video
        ∧ lastScan? history = some scanned
        ∧ scanned.line = video.line)
      ∧ ∀ history scanned,
          Course (actions ++ [.advance clocks requests]) history video
          → lastScan? history = some scanned
          → scanned.control = video.control
          → scanned.oam = video.oam
          → ∀ x < screenWidth,
              after.drawing.pixel? x video.line.toNat
              = some (video.linePixel (windowRows history) x) := by
  dsimp only
  refine ⟨?_, ?_⟩
  · obtain ⟨history, course⟩ := ends.course
    obtain ⟨scanned, last, line, -⟩ := course.scanned ends.mode
    exact ⟨history, scanned, course, last, line⟩
  · intro history scanned course last control oam x onLine
    obtain ⟨found, found?, line, latched⟩ := course.scanned ends.mode
    obtain rfl : found = scanned := Option.some.inj (found?.symm.trans last)
    rw [sprites_scanObjects_congr line control oam] at latched
    rw [ends.draws.1, getElem?_lineRow_of_spritesOn on latched onLine, course.windowLine_eq]

/-- Two objects of the same tile overlap: the second one begins one column left of the first, which
has the other palette.
-/
def overlapping : List Action :=
  [.boot, .write 0xFF49 0x04, .storeVram ⟨16, by decide⟩ 0xFF,
    .replaceObjects (.ofFn fun cell => [16, 9, 1, 0x10, 16, 8, 1].getD cell.val 0),
    .write 0xFF40 0x93]

/-- Where they overlap the second one is seen, and the first one where that ends. -/
theorem line_with_objects_drawn_overlapping
    : ∃ sweep history scanned,
        TransferEnds overlapping 252 0 sweep
        ∧ sweep.video.spritesOn
        ∧ Course (overlapping ++ [.advance 252 0]) history sweep.video
        ∧ lastScan? history = some scanned
        ∧ scanned.control = sweep.video.control
        ∧ scanned.oam = sweep.video.oam
        ∧ sweep.spend.leaveMode.video.drawing.pixel? 1 0 = some .black
        ∧ sweep.spend.leaveMode.video.drawing.pixel? 8 0 = some .lightGray := by
  let start := (initial.performAll overlapping).begin 252 0
  let sweep := start.spend.leaveMode
  have ends : TransferEnds overlapping 252 0 sweep :=
    ⟨by decide, .leave .start (by decide), by decide, by decide⟩
  have on : sweep.video.spritesOn := by decide
  obtain ⟨earlier, reached⟩ := course_performAll overlapping
  have course : Course (overlapping ++ [.advance 252 0]) (.scanned start.spend.video :: earlier)
      sweep.video :=
    (reached.begin (by decide) ends.on).leave (by decide)
  have rows : windowRows (.scanned start.spend.video :: earlier) = 0 := by
    rw [← course.windowLine_eq]
    decide
  have drawn := (line_with_objects_drawn overlapping ends on).2 _ _ course rfl rfl rfl
  have line : sweep.video.line.toNat = 0 := by decide
  rw [line, rows] at drawn
  have front : sweep.video.linePixel 0 1 = .black := by decide +kernel
  have behind : sweep.video.linePixel 0 8 = .lightGray := by decide +kernel
  refine ⟨sweep, _, _, ends, on, course, rfl, rfl, rfl, ?_, ?_⟩
  · rw [drawn 1 (by decide), front]
  · rw [drawn 8 (by decide), behind]

end Video

end Handheld
