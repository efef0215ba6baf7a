/-! The eight keys and the register through which a game reads them. The register shows two
columns of four keys; a cleared bit means pressed, or for a column, selected.
-/

namespace Handheld

/-- A key, in the order of the bits of a key mask. -/
inductive Button where
  | a
  | b
  | select
  | start
  | right
  | left
  | up
  | down
  deriving DecidableEq, Repr

namespace Button

/-- All keys, lowest mask bit first. -/
def all : List Button :=
  [.a, .b, .select, .start, .right, .left, .up, .down]

/-- The bit of a key in a key mask; the low four bits are the button column and the high
four bits the direction column.
-/
def mask : Button → UInt8
  | .a => 0x01
  | .b => 0x02
  | .select => 0x04
  | .start => 0x08
  | .right => 0x10
  | .left => 0x20
  | .up => 0x40
  | .down => 0x80

def name : Button → String
  | .a => "A"
  | .b => "B"
  | .select => "Select"
  | .start => "Start"
  | .right => "Right"
  | .left => "Left"
  | .up => "Up"
  | .down => "Down"

def ofName? (text : String) : Option Button :=
  all.find? (·.name == text)

end Button

/-- Held keys and selected columns. -/
structure Joypad where
  /-- One bit per key, set while the key is held. -/
  pressed : UInt8
  /-- The two column-select bits as last written. -/
  columns : UInt8
  deriving DecidableEq, Repr

namespace Joypad

def directionColumn : UInt8 :=
  0x10

def buttonColumn : UInt8 :=
  0x20

/-- No key held and no column selected. -/
def initial : Joypad :=
  { pressed := 0, columns := directionColumn ||| buttonColumn }

instance : Inhabited Joypad :=
  ⟨initial⟩

/-- The four key bits a column contributes: all ones unless it is selected. -/
def columnBits (joypad : Joypad) (column keys : UInt8) : UInt8 :=
  if joypad.columns &&& column = 0 then ~~~keys &&& 0x0F else 0x0F

/-- The register as a game sees it; both columns together are combined by "and". -/
def read (joypad : Joypad) : UInt8 :=
  (0xC0 : UInt8) ||| joypad.columns
    ||| (joypad.columnBits directionColumn (joypad.pressed >>> 4)
      &&& joypad.columnBits buttonColumn joypad.pressed)

/-- The register after a write, of which only the column bits count. -/
def write (joypad : Joypad) (value : UInt8) : Joypad :=
  { joypad with columns := value &&& (directionColumn ||| buttonColumn) }

def isHeld (joypad : Joypad) (button : Button) : Bool :=
  joypad.pressed &&& button.mask != 0

/-- The held keys, lowest mask bit first. -/
def held (joypad : Joypad) : List Button :=
  Button.all.filter joypad.isHeld

/-- The joypad with all keys replaced, and whether a key went down that was not held. -/
def setKeys (joypad : Joypad) (keys : UInt8) : Joypad × Bool :=
  ({ joypad with pressed := keys }, keys &&& ~~~joypad.pressed != 0)

/-- The joypad with one key pressed or released, and whether it newly went down. -/
def setButton (joypad : Joypad) (button : Button) (down : Bool) : Joypad × Bool :=
  joypad.setKeys
    (if down then joypad.pressed ||| button.mask else joypad.pressed &&& ~~~button.mask)

end Joypad

end Handheld
