import Handheld.Proofs.Video.Backdrop
import Handheld.Proofs.Video.Latch
import Mathlib.Data.List.MinMax
import Mathlib.Data.Prod.Lex

/-! The objects of a line, as object memory tells them. Each position of the line goes to one of the
first ten objects on it: of those that are not transparent there the one farthest left, and among
those equally far left the first in memory. Since objects are inserted one after another in drawing
order, it is the first of those latched.
-/

namespace Handheld.Video

-----------------------------------------------------------------------------------------
-- Objects in memory
-----------------------------------------------------------------------------------------

/-- A byte of an object in object memory. -/
def objectByte (video : Video) (object field : Nat) : UInt8 :=
  video.oam.getOr (object * 4 + field) 0

/-- An object has a row on the line. Its own position is counted from sixteen rows above the screen.
-/
def onLine (video : Video) (object : Nat) : Bool :=
  let top := (video.objectByte object 0).toNat
  top ≤ video.line.toNat + 16 && video.line.toNat + 16 < top + video.spriteHeight

/-- The objects that can be drawn on the line, in the order of object memory. -/
def lineObjects (video : Video) : List Nat :=
  ((List.range objectCount).filter video.onLine).take spritesPerLine

/-- An object has a column at a position. Its own is counted from eight columns left of the screen.
-/
def covers (video : Video) (x object : Nat) : Bool :=
  let left := (video.objectByte object 1).toNat
  left ≤ x + 8 && x < left

/-- Whether a bit of an object's attributes is set. -/
def objectFlag (video : Video) (object bit : Nat) : Bool :=
  (video.objectByte object 3).toNat.testBit bit

/-- The row of an object on the line, in its pattern. -/
def objectRow (video : Video) (object : Nat) : Nat :=
  let row := video.line.toNat + 16 - (video.objectByte object 0).toNat
  if video.objectFlag object 6 then video.spriteHeight - 1 - row else row

/-- The tile of an object, the upper one of two for tall objects. -/
def objectTile (video : Video) (object : Nat) : UInt8 :=
  let tile := video.objectByte object 2
  if video.spriteHeight = 16 then tile &&& 0xFE else tile

/-- The bit of the planes that is an object's column at a position. -/
def objectBit (video : Video) (x object : Nat) : Nat :=
  let column := x + 8 - (video.objectByte object 1).toNat
  if video.objectFlag object 5 then column else 7 - column

/-- One of the two planes of an object's row on the line. -/
def objectPlane (video : Video) (object plane : Nat) : UInt8 :=
  video.vram.getOr (16 * (video.objectTile object).toNat + 2 * video.objectRow object + plane) 0

/-- The colour number of an object at a position of the line. -/
def objectColor (video : Video) (x object : Nat) : ColorId :=
  tileColor (video.objectPlane object 0) (video.objectPlane object 1) (video.objectBit x object)

/-- An object has a pixel at a position that is not transparent. -/
def solidAt (video : Video) (x object : Nat) : Bool :=
  video.covers x object && (video.objectColor x object).val != 0

/-- Objects farther left come first, and among those equally far left the ones earlier in memory. -/
def objectRank (video : Video) (object : Nat) : Nat ×ₗ Nat :=
  toLex ((video.objectByte object 1).toNat, object)

/-- The object that a position of the line goes to. -/
def frontObject? (video : Video) (x : Nat) : Option Nat :=
  (video.lineObjects.filter (video.solidAt x)).argmin video.objectRank

/-- The pixel of the line below all objects at a position. -/
def pixelBelow (video : Video) (windowRow x : Nat) : Pixel :=
  .ofShade (shadeOf video.backgroundPalette (video.colorBelow windowRow x))

/-- Whether an object's pixel hides behind the line below. -/
def hiddenAt (video : Video) (windowRow x object : Nat) : Bool :=
  video.objectFlag object 7 && (video.colorBelow windowRow x).val != 0

/-- The pixel of an object at a position, in one of two palettes. -/
def objectPixel (video : Video) (x object : Nat) : Pixel :=
  let palette :=
    if video.objectFlag object 4 then video.objectPalette1 else video.objectPalette0
  .ofShade (shadeOf palette (video.objectColor x object))

/-- The pixel of the line at a position, with the row that the window has come to. -/
def linePixel (video : Video) (windowRow x : Nat) : Pixel :=
  match video.frontObject? x with
  | some object =>
      if video.hiddenAt windowRow x object then video.pixelBelow windowRow x
      else video.objectPixel x object
  | none => video.pixelBelow windowRow x

variable {video : Video}

-----------------------------------------------------------------------------------------
-- The drawing order
-----------------------------------------------------------------------------------------

/-- An object read from memory touches the line when its bytes say so. -/
theorem touchesLine_spriteAt (video : Video) (object : Nat)
    : video.touchesLine (video.spriteAt object) = video.onLine object := by
  have top : (video.spriteAt object).y = (video.objectByte object 0).toNat - 16 := rfl
  rw [Bool.eq_iff_iff, touchesLine_iff, top]
  simp only [onLine, Bool.and_eq_true, decide_eq_true_eq]
  omega

/-- The visible objects are those of the line. -/
theorem visibleSprites_eq (video : Video)
    : video.visibleSprites = video.lineObjects.map video.spriteAt := by
  have same : video.touchesLine ∘ video.spriteAt = video.onLine :=
    funext video.touchesLine_spriteAt
  rw [visibleSprites, lineObjects, List.filter_map, same, List.map_take]

/-- The objects of the line come in the order of memory. -/
theorem lineObjects_pairwise (video : Video)
    : video.lineObjects.Pairwise (· < ·) :=
  (List.pairwise_lt_range.filter _).sublist (List.take_sublist _ _)

/-- Ranks compare the columns of objects first, and then their places in memory. -/
theorem objectRank_lt_iff {first second : Nat}
    : video.objectRank first < video.objectRank second
      ↔ (video.objectByte first 1).toNat < (video.objectByte second 1).toNat
        ∨ (video.objectByte first 1).toNat = (video.objectByte second 1).toNat
          ∧ first < second :=
  Prod.Lex.toLex_lt_toLex

/-- Objects are in drawing order. -/
def InDrawingOrder (video : Video) (objects : List Nat) : Prop :=
  objects.Pairwise (video.objectRank · < video.objectRank ·)

/-- An object behind others in memory is inserted among them so that they stay in drawing order, by
induction on the others.
-/
theorem insert_ordered {object : Nat} {others : List Nat} (ordered : video.InDrawingOrder others)
    (behind : ∀ other ∈ others, other < object)
    : ∃ order : List Nat,
        (video.spriteAt object).insert (others.map video.spriteAt) = order.map video.spriteAt
        ∧ order.Perm (object :: others)
        ∧ video.InDrawingOrder order := by
  induction others with
  | nil => exact ⟨[object], rfl, .refl _, List.pairwise_singleton _ _⟩
  | cons next rest ih =>
      obtain ⟨first, sorted⟩ := List.pairwise_cons.mp ordered
      have left : (video.spriteAt object).x < (video.spriteAt next).x
          ↔ (video.objectByte object 1).toNat < (video.objectByte next 1).toNat := by
        change ((video.objectByte object 1).toNat : Int) - 8
            < (video.objectByte next 1).toNat - 8 ↔ _
        omega
      rw [List.map_cons, Sprite.insert]
      split
      case isTrue lefter =>
        have before := objectRank_lt_iff.mpr (.inl (left.mp lefter))
        refine ⟨object :: next :: rest, rfl, .refl _, List.pairwise_cons.mpr ⟨?_, ordered⟩⟩
        intro other member
        rcases List.mem_cons.mp member with rfl | member
        · exact before
        · exact before.trans (first other member)
      case isFalse notLefter =>
        obtain ⟨order, inserted, perm, pairwise⟩ :=
          ih sorted fun other member => behind other (List.mem_cons_of_mem _ member)
        have after : video.objectRank next < video.objectRank object := by
          have earlier := behind next List.mem_cons_self
          have column := mt left.mpr notLefter
          rw [objectRank_lt_iff]
          omega
        refine ⟨next :: order, by rw [inserted, List.map_cons],
          (perm.cons next).trans (List.Perm.swap object next rest),
          List.pairwise_cons.mpr ⟨?_, pairwise⟩⟩
        intro other member
        rcases List.mem_cons.mp (perm.mem_iff.mp member) with rfl | member
        · exact after
        · exact first other member

/-- Objects inserted in the order of memory end up in drawing order, by induction on them. -/
theorem foldl_insert_ordered {objects found : List Nat} (ascending : objects.Pairwise (· < ·))
    (ordered : video.InDrawingOrder found)
    (behind : ∀ other ∈ found, ∀ object ∈ objects, other < object)
    : ∃ order : List Nat,
        (objects.map video.spriteAt).foldl (fun found s => s.insert found)
            (found.map video.spriteAt)
          = order.map video.spriteAt
        ∧ order.Perm (objects ++ found)
        ∧ video.InDrawingOrder order := by
  induction objects generalizing found with
  | nil => exact ⟨found, rfl, .refl _, ordered⟩
  | cons object rest ih =>
      obtain ⟨first, ascends⟩ := List.pairwise_cons.mp ascending
      obtain ⟨next, inserted, among, sorted⟩ := insert_ordered ordered
        fun other member => behind other member object List.mem_cons_self
      have later : ∀ other ∈ next, ∀ object ∈ rest, other < object := by
        intro other member last latest
        rcases List.mem_cons.mp (among.mem_iff.mp member) with rfl | earlier
        · exact first last latest
        · exact behind other earlier last (List.mem_cons_of_mem _ latest)
      obtain ⟨order, folded, perm, pairwise⟩ := ih ascends sorted later
      refine ⟨order, ?_, ?_, pairwise⟩
      · rw [List.map_cons, List.foldl_cons, inserted, folded]
      · exact perm.trans ((among.append_left rest).trans List.perm_middle)

/-- The scan latches the objects of the line in drawing order. -/
theorem exists_drawing_order (video : Video)
    : ∃ order : List Nat,
        video.scanObjects.sprites = order.map video.spriteAt
        ∧ order.Perm video.lineObjects
        ∧ video.InDrawingOrder order := by
  have nothing : video.InDrawingOrder [] := List.Pairwise.nil
  obtain ⟨order, folded, perm, ordered⟩ :=
    foldl_insert_ordered video.lineObjects_pairwise nothing nofun
  rw [List.append_nil] at perm
  refine ⟨order, ?_, perm, ordered⟩
  rw [scanObjects, visibleSprites_eq]
  exact folded

/-- In drawing order, a position goes to the first object that is solid there. -/
theorem frontObject?_eq {order : List Nat} (perm : order.Perm video.lineObjects)
    (ordered : video.InDrawingOrder order) (x : Nat)
    : video.frontObject? x = order.find? (video.solidAt x) := by
  cases found : order.find? (video.solidAt x) with
  | none =>
      have transparent := List.find?_eq_none.mp found
      refine List.argmin_eq_none.mpr (List.filter_eq_nil_iff.mpr fun object member => ?_)
      exact transparent object (perm.mem_iff.mpr member)
  | some object =>
      obtain ⟨solid, before, rest, rfl, transparent⟩ := List.find?_eq_some_iff_append.mp found
      have ranks : ∀ other ∈ video.lineObjects.filter (video.solidAt x),
          other = object ∨ video.objectRank object < video.objectRank other := by
        intro other member
        obtain ⟨listed, shows⟩ := List.mem_filter.mp member
        rcases List.mem_append.mp (perm.mem_iff.mpr listed) with early | late
        · exact absurd shows (by simpa using transparent other early)
        · rcases List.mem_cons.mp late with rfl | late
          · exact .inl rfl
          · have behind := (List.pairwise_append.mp ordered).2.1
            exact .inr ((List.pairwise_cons.mp behind).1 other late)
      have listed : object ∈ video.lineObjects :=
        perm.mem_iff.mp (List.mem_append_right before List.mem_cons_self)
      refine List.argmin_eq_some_iff.mpr ⟨List.mem_filter.mpr ⟨listed, solid⟩, ?_, ?_⟩
      · intro other member
        rcases ranks other member with rfl | after
        · exact le_refl _
        · exact after.le
      · intro other member notAfter
        rcases ranks other member with rfl | after
        · exact Nat.le_refl _
        · exact absurd notAfter after.not_ge

end Handheld.Video
