/-! The picture shown by the display: 144 rows of 160 pixels, each pixel one of four grays. -/

namespace Handheld

/-- Pixels in a row. -/
abbrev screenWidth : Nat :=
  160

/-- Rows in a picture. -/
abbrev screenHeight : Nat :=
  144

/-- A colour with opacity. -/
structure Pixel where
  red : UInt8
  green : UInt8
  blue : UInt8
  alpha : UInt8
  deriving DecidableEq, Repr, Inhabited

/-- One of the four shades, lightest first. -/
abbrev Shade :=
  Fin 4

def Pixel.gray (level : UInt8) : Pixel :=
  ⟨level, level, level, 0xFF⟩

def Pixel.white : Pixel :=
  .gray 255

def Pixel.lightGray : Pixel :=
  .gray 180

def Pixel.darkGray : Pixel :=
  .gray 90

def Pixel.black : Pixel :=
  .gray 0

def Pixel.ofShade (shade : Shade) : Pixel :=
  match shade.val with
  | 0 => .white
  | 1 => .lightGray
  | 2 => .darkGray
  | _ => .black

/-- The four components of a pixel in storage order. -/
def Pixel.components (pixel : Pixel) : List UInt8 :=
  [pixel.red, pixel.green, pixel.blue, pixel.alpha]

abbrev PixelRow :=
  Vector Pixel screenWidth

/-- A whole screen, top row first. -/
abbrev Picture :=
  Vector PixelRow screenHeight

namespace Picture

def blank : Picture :=
  Vector.replicate screenHeight (Vector.replicate screenWidth .white)

/-- The pixel at a position, if it lies on the screen. -/
def pixel? (picture : Picture) (x y : Nat) : Option Pixel :=
  picture[y]?.bind (·[x]?)

/-- All components, row by row. -/
def bytes (picture : Picture) : ByteArray :=
  picture.foldl
    (fun out row => row.foldl (fun out pixel => pixel.components.foldl .push out) out) .empty

end Picture

end Handheld
