import Handheld.Memory
import Handheld.Screen

/-! The video unit: its memories, registers and position within the frame. -/

namespace Handheld

/-- The phase of a line. -/
inductive Mode where
  | hblank
  | vblank
  | oamScan
  | transfer
  deriving DecidableEq, Repr

namespace Mode

/-- The two status bits that show a mode. -/
def code : Mode → UInt8
  | .hblank => 0
  | .vblank => 1
  | .oamScan => 2
  | .transfer => 3

/-- Clocks spent in a mode before it is left; during vertical blanking, one line. -/
def duration : Mode → Nat
  | .hblank => 204
  | .vblank => 456
  | .oamScan => 80
  | .transfer => 172

/-- The status bit that asks for an interrupt on entry to a mode. -/
def statusSource : Mode → UInt8
  | .hblank => 0x08
  | .vblank => 0x10
  | .oamScan => 0x20
  | .transfer => 0x00

/-- No mode is instantaneous. -/
theorem duration_pos (mode : Mode)
    : 0 < mode.duration := by
  cases mode <;> decide

end Mode

/-- An object latched for the line being drawn. Positions are of its top left corner. -/
structure Sprite where
  x : Int
  y : Int
  tile : UInt8
  attributes : UInt8
  deriving DecidableEq, Repr

/-- Memories, registers and progress of the video unit. -/
structure Video where
  vram : Memory 0x2000
  oam : Memory 0xA0
  control : UInt8
  /-- The interrupt enables among the status bits. -/
  status : UInt8
  scrollY : UInt8
  scrollX : UInt8
  line : UInt8
  lineCompare : UInt8
  /-- The coincidence bit, as last evaluated. -/
  coincidence : Bool
  /-- The page last named for a transfer to object memory. -/
  transferPage : UInt8
  backgroundPalette : UInt8
  objectPalette0 : UInt8
  objectPalette1 : UInt8
  windowY : UInt8
  windowX : UInt8
  /-- The row of the window to draw next. -/
  windowLine : UInt8
  mode : Mode
  /-- Clocks spent in the current mode, fewer than it lasts except while the unit runs. -/
  clock : Nat
  /-- The objects found for this line, in drawing order. -/
  sprites : List Sprite
  /-- The picture being drawn, row by row. -/
  drawing : Picture
  /-- The picture as it was when vertical blanking was last entered. -/
  completed : Picture
  /-- Set when a picture is completed, until it is acknowledged. -/
  frameReady : Bool
  /-- Pictures completed so far. The count has no bound. It stands for a counter of 64 bits that
  starts over from zero once it has been filled.
  -/
  frames : Nat

namespace Video

/-- The video unit at power on, with every register cleared and the display off. -/
def initial : Video :=
  { vram := .zeroed 0x2000
    oam := .zeroed 0xA0
    control := 0
    status := 0
    scrollY := 0
    scrollX := 0
    line := 0
    lineCompare := 0
    coincidence := true
    transferPage := 0
    backgroundPalette := 0
    objectPalette0 := 0
    objectPalette1 := 0
    windowY := 0
    windowX := 0
    windowLine := 0
    mode := .hblank
    clock := 0
    sprites := []
    drawing := .blank
    completed := .blank
    frameReady := false
    frames := 0 }

instance : Inhabited Video :=
  ⟨initial⟩

/-- Whether a value of the control register switches the display on. -/
def switchesOn (control : UInt8) : Bool :=
  control &&& 0x80 != 0

/-- Whether the display is on. -/
def lcdOn (video : Video) : Bool :=
  switchesOn video.control

/-- Whether line and compare registers agree now. -/
def linesMatch (video : Video) : Bool :=
  video.line == video.lineCompare

/-- The registers as start-up code leaves them, at the beginning of a frame. -/
def afterBoot (video : Video) : Video :=
  { video with
    control := 0x91
    status := 0x00
    transferPage := 0xFF
    backgroundPalette := 0xFC
    objectPalette0 := 0xFF
    objectPalette1 := 0xFF
    line := 0
    mode := .oamScan
    clock := 0
    windowLine := 0
    coincidence := 0 == video.lineCompare }

def acknowledgeFrame (video : Video) : Video :=
  { video with frameReady := false }

def replaceObjects (video : Video) (objects : Memory 0xA0) : Video :=
  { video with oam := objects }

end Video

end Handheld
