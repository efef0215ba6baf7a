import Handheld.Video.Sprite

/-! Drawing one line. The background and window give every pixel a colour number; palettes
turn numbers into shades; objects are then painted over, each pixel going to the first object
that is opaque there.
-/

namespace Handheld

/-- A colour number within a tile; zero is transparent for objects. -/
abbrev ColorId :=
  Fin 4

/-- The colour number at one bit of a tile row, from its low and high planes. -/
def planeColor (low high : UInt8) (bit : UInt8) : ColorId :=
  Fin.ofNat 4 (((high >>> bit &&& 1) * 2 + (low >>> bit &&& 1)).toNat)

def paletteShade (palette : UInt8) (color : ColorId) : Shade :=
  Fin.ofNat 4 (palette >>> UInt8.ofNat (color.val * 2)).toNat

/-- Colour numbers of a whole line. -/
abbrev ColorRow :=
  Vector ColorId screenWidth

/-- A row with a run of positions painted one after another. -/
def ColorRow.paint (color : Nat → ColorId) : (count x : Nat) → ColorRow → ColorRow
  | 0, _, row => row
  | count + 1, x, row => paint color count (x + 1) (row.setIfInBounds x (color x))

/-- A point of a map of tiles, counted from its top left corner. -/
structure MapPoint where
  /-- Where the map starts in video memory. -/
  base : Nat
  x : Nat
  y : Nat

/-- Where the tile number for a point lies in video memory. -/
def MapPoint.index (point : MapPoint) : Nat :=
  point.base + point.y / 8 * 32 + point.x / 8

/-- A line while objects are painted onto it. -/
structure Canvas where
  pixels : PixelRow
  /-- Positions already taken by an opaque object pixel, shown or hidden. -/
  claimed : Vector Bool screenWidth

namespace Video

/-- Whether background and window are drawn. -/
def backgroundOn (video : Video) : Bool :=
  video.control &&& 0x01 != 0

def spritesOn (video : Video) : Bool :=
  video.control &&& 0x02 != 0

/-- Whether the window touches the current line. -/
def windowOn (video : Video) : Bool :=
  video.control &&& 0x20 != 0 && video.windowY ≤ video.line && video.windowX ≤ 166

/-- Where the tile map selected by a control bit starts. -/
def mapBase (video : Video) (bit : UInt8) : Nat :=
  if video.control &&& bit != 0 then 0x1C00 else 0x1800

/-- Where the data of a background tile starts. Without the unsigned addressing bit the tile
number counts from the middle block, as a signed number.
-/
def tileBase (video : Video) (tile : UInt8) : Nat :=
  if video.control &&& 0x10 != 0 then tile.toNat * 16
  else 0x0800 + (tile + 128).toNat * 16

/-- Where the low plane of a point's row of a tile lies; the high plane comes next. -/
def patternIndex (video : Video) (tile : UInt8) (point : MapPoint) : Nat :=
  video.tileBase tile + point.y % 8 * 2

def pointColor (video : Video) (point : MapPoint) : ColorId :=
  let tile := video.vram.getOr point.index 0
  let row := video.patternIndex tile point
  planeColor (video.vram.getOr row 0) (video.vram.getOr (row + 1) 0)
    (UInt8.ofNat (7 - point.x % 8))

/-- The point of the background shown at a position of the line. -/
def backgroundPoint (video : Video) (x : Nat) : MapPoint :=
  { base := video.mapBase 0x08
    x := (x + video.scrollX.toNat) % 256
    y := (video.line.toNat + video.scrollY.toNat) % 256 }

def paintBackground (video : Video) (row : ColorRow) : ColorRow :=
  row.paint (fun x => video.pointColor (video.backgroundPoint x)) screenWidth 0

/-- Where the window begins on the line. The edge register counts from seven positions left of
the screen.
-/
def windowStart (video : Video) : Nat :=
  video.windowX.toNat - 7

/-- The point of the window shown at a position of the line. -/
def windowPoint (video : Video) (x : Nat) : MapPoint :=
  { base := video.mapBase 0x40
    x := x + 7 - video.windowX.toNat
    y := video.windowLine.toNat }

/-- The line's window painted over a row, from the window's left edge on. -/
def paintWindow (video : Video) (row : ColorRow) : ColorRow :=
  row.paint (fun x => video.pointColor (video.windowPoint x)) (screenWidth - video.windowStart)
    video.windowStart

/-- The colour numbers of the line below all objects, and whether the window was drawn. -/
def backdrop (video : Video) : ColorRow × Bool :=
  let row : ColorRow := Vector.replicate screenWidth 0
  if video.backgroundOn then
    let row := video.paintBackground row
    if video.windowOn then (video.paintWindow row, true) else (row, false)
  else (row, false)

/-- The row of an object's pattern that falls on the current line. -/
def spriteRow (video : Video) (sprite : Sprite) : Int :=
  let row := video.line.toNat - sprite.y
  if sprite.attributes &&& 0x40 != 0 then video.spriteHeight - 1 - row else row

/-- Where the two planes of an object's row lie in video memory. Tall objects ignore the low
bit of their tile number.
-/
def spriteAddress (video : Video) (sprite : Sprite) : Int :=
  let tile := if video.spriteHeight = 16 then sprite.tile &&& 0xFE else sprite.tile
  tile.toNat * 16 + video.spriteRow sprite * 2

/-- The two planes of an object's row, if they lie in video memory. They can lie before it only if
objects were made short after the scan of the line.
-/
def spritePlanes? (video : Video) (sprite : Sprite) : Option (UInt8 × UInt8) :=
  match video.spriteAddress sprite with
  | .ofNat address =>
      if h : address + 1 < 0x2000 then
        some (video.vram.get ⟨address, Nat.lt_of_succ_lt h⟩, video.vram.get ⟨address + 1, h⟩)
      else none
  | .negSucc _ => none

/-- One opaque object pixel put on the canvas. The position is claimed even if the pixel
hides behind the backdrop.
-/
def paintOpaque (palette : UInt8) (behind : Bool) (color : ColorId) (below : ColorRow)
    (canvas : Canvas) (x : Fin screenWidth) : Canvas :=
  let claimed := canvas.claimed.set x true
  if behind && below[x] != 0 then { canvas with claimed }
  else
    { pixels := canvas.pixels.set x (.ofShade (paletteShade palette color)), claimed }

/-- Eight columns of an object painted from left to right, skipping those off the screen,
those already claimed and those that are transparent.
-/
def paintColumns (sprite : Sprite) (palette low high : UInt8) (below : ColorRow)
    : (columns : List Nat) → Canvas → Canvas
  | [], canvas => canvas
  | column :: rest, canvas =>
      let x := sprite.x + column
      let next :=
        if h : 0 ≤ x ∧ x < screenWidth then
          let position : Fin screenWidth := ⟨x.toNat, by omega⟩
          if canvas.claimed[position] then canvas
          else
            let flipped := sprite.attributes &&& 0x20 != 0
            let bit := UInt8.ofNat (if flipped then column else 7 - column)
            let color := planeColor low high bit
            if color = 0 then canvas
            else
              paintOpaque palette (sprite.attributes &&& 0x80 != 0) color below canvas position
        else canvas
      paintColumns sprite palette low high below rest next

/-- An object painted onto the canvas. One without planes is passed over here, although drawing it
would end the program. So what is proved about the drawing of lines, and about steps and frames in
which lines are drawn, speaks of calls that return.
-/
def paintSprite (video : Video) (below : ColorRow) (canvas : Canvas) (sprite : Sprite)
    : Canvas :=
  match video.spritePlanes? sprite with
  | none => canvas
  | some (low, high) =>
      let palette :=
        if sprite.attributes &&& 0x10 != 0 then video.objectPalette1 else video.objectPalette0
      paintColumns sprite palette low high below (List.range 8) canvas

/-- The latched objects painted in drawing order. -/
def paintSprites (video : Video) (below : ColorRow) (pixels : PixelRow) : PixelRow :=
  (video.sprites.foldl (video.paintSprite below)
    { pixels, claimed := Vector.replicate screenWidth false }).pixels

def lineRow (video : Video) (below : ColorRow) : PixelRow :=
  let pixels := below.map fun color => .ofShade (paletteShade video.backgroundPalette color)
  if video.spritesOn then video.paintSprites below pixels else pixels

/-- The video unit with the current line drawn, if it lies on the screen. Drawing the window
moves on to its next row.
-/
def drawLine (video : Video) : Video :=
  if video.lcdOn then
    if h : video.line.toNat < screenHeight then
      let (below, windowDrawn) := video.backdrop
      { video with
        drawing := video.drawing.set video.line.toNat (video.lineRow below)
        windowLine := if windowDrawn then video.windowLine + 1 else video.windowLine }
    else video
  else video

end Video

end Handheld
