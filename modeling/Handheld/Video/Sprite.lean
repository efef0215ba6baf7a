import Handheld.Video.Basic

/-! The scan of object memory at the start of a line. It finds the first ten objects that
touch the line and puts them in drawing order: leftmost first, and among equals the one that
comes earlier in object memory.
-/

namespace Handheld

/-- An object inserted behind those that lie at most as far right. -/
def Sprite.insert (sprite : Sprite) : List Sprite → List Sprite
  | [] => [sprite]
  | next :: rest =>
      if sprite.x < next.x then sprite :: next :: rest else next :: sprite.insert rest

namespace Video

def spriteHeight (video : Video) : Nat :=
  if video.control &&& 0x04 != 0 then 16 else 8

def spriteAt (video : Video) (index : Nat) : Sprite :=
  let field (offset : Nat) := video.oam.getOr (index * 4 + offset) 0
  { x := (field 1).toNat - 8
    y := (field 0).toNat - 16
    tile := field 2
    attributes := field 3 }

/-- Whether an object has a row on the current line. -/
def touchesLine (video : Video) (sprite : Sprite) : Bool :=
  sprite.y ≤ video.line.toNat && video.line.toNat < sprite.y + video.spriteHeight

/-- Object memory holds forty objects. -/
def objectCount : Nat :=
  40

/-- At most ten objects are drawn on a line. -/
def spritesPerLine : Nat :=
  10

/-- The first objects in memory that touch the line, as many as can be drawn. -/
def visibleSprites (video : Video) : List Sprite :=
  (((List.range objectCount).map video.spriteAt).filter video.touchesLine).take spritesPerLine

/-- The video unit with the line's objects latched in drawing order. -/
def scanObjects (video : Video) : Video :=
  { video with sprites := video.visibleSprites.foldl (fun found s => s.insert found) [] }

end Video

end Handheld
