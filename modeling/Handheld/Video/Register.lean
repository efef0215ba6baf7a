import Handheld.Video.Basic

/-! The registers of the video unit. Switching the display off or on through the control
register restarts the frame.
-/

namespace Handheld.Video

/-- The registers, in address order. -/
inductive Register where
  | control
  | status
  | scrollY
  | scrollX
  | line
  | lineCompare
  | transferPage
  | backgroundPalette
  | objectPalette0
  | objectPalette1
  | windowY
  | windowX
  deriving DecidableEq, Repr

def Register.at? (address : UInt16) : Option Register :=
  match address.toNat with
  | 0xFF40 => some .control
  | 0xFF41 => some .status
  | 0xFF42 => some .scrollY
  | 0xFF43 => some .scrollX
  | 0xFF44 => some .line
  | 0xFF45 => some .lineCompare
  | 0xFF46 => some .transferPage
  | 0xFF47 => some .backgroundPalette
  | 0xFF48 => some .objectPalette0
  | 0xFF49 => some .objectPalette1
  | 0xFF4A => some .windowY
  | 0xFF4B => some .windowX
  | _ => none

/-- The status byte: enables, coincidence and mode, with the unused top bit set. -/
def statusByte (video : Video) : UInt8 :=
  (video.status &&& 0x78) ||| 0x80 ||| video.mode.code
    ||| (if video.coincidence then 0x04 else 0)

def read (video : Video) : Register → UInt8
  | .control => video.control
  | .status => video.statusByte
  | .scrollY => video.scrollY
  | .scrollX => video.scrollX
  | .line => video.line
  | .lineCompare => video.lineCompare
  | .transferPage => video.transferPage
  | .backgroundPalette => video.backgroundPalette
  | .objectPalette0 => video.objectPalette0
  | .objectPalette1 => video.objectPalette1
  | .windowY => video.windowY
  | .windowX => video.windowX

def writeControl (video : Video) (value : UInt8) : Video :=
  let wasOn := video.lcdOn
  let video := { video with control := value }
  if wasOn && !video.lcdOn then
    { video with mode := .hblank, clock := 0, windowLine := 0, line := 0 }
  else if !wasOn && video.lcdOn then
    { video with
      mode := .oamScan, clock := 0, line := 0, coincidence := 0 == video.lineCompare }
  else video

/-- A value that leaves the display on or off as it is only replaces the register. -/
theorem writeControl_of_same (video : Video) {value : UInt8}
    (same : switchesOn value = video.lcdOn)
    : video.writeControl value = { video with control := value } := by
  unfold writeControl
  have on : ({ video with control := value } : Video).lcdOn = video.lcdOn := same
  simp [on]

/-- Switching the display off returns to the start of a frame. -/
theorem writeControl_of_off (video : Video) {value : UInt8} (on : video.lcdOn)
    (off : switchesOn value = false)
    : video.writeControl value
      = { video with
          control := value, mode := .hblank, clock := 0, windowLine := 0, line := 0 } := by
  unfold writeControl
  have after : ({ video with control := value } : Video).lcdOn = false := off
  simp [on, after]

/-- Switching the display on begins a frame. -/
theorem writeControl_of_on (video : Video) {value : UInt8} (off : video.lcdOn = false)
    (on : switchesOn value)
    : video.writeControl value
      = { video with
          control := value, mode := .oamScan, clock := 0, line := 0
          coincidence := 0 == video.lineCompare } := by
  unfold writeControl
  have after : ({ video with control := value } : Video).lcdOn = true := on
  simp [off, after]

/-- The display is on after a write to the control register when the value says so. -/
@[simp]
theorem lcdOn_writeControl (video : Video) (value : UInt8)
    : (video.writeControl value).lcdOn = switchesOn value := by
  unfold writeControl
  dsimp only
  split
  · rfl
  · split <;> rfl

/-- The video unit after a register write; the line register ignores it. -/
def write (video : Video) (register : Register) (value : UInt8) : Video :=
  match register with
  | .control => video.writeControl value
  | .status => { video with status := value &&& 0x78 }
  | .scrollY => { video with scrollY := value }
  | .scrollX => { video with scrollX := value }
  | .line => video
  | .lineCompare =>
      { video with lineCompare := value, coincidence := video.line == value }
  | .transferPage => { video with transferPage := value }
  | .backgroundPalette => { video with backgroundPalette := value }
  | .objectPalette0 => { video with objectPalette0 := value }
  | .objectPalette1 => { video with objectPalette1 := value }
  | .windowY => { video with windowY := value }
  | .windowX => { video with windowX := value }

/-- Reading by address; addresses outside the video unit read as ones. -/
def readAt (video : Video) (address : UInt16) : UInt8 :=
  match Register.at? address with
  | some register => video.read register
  | none => 0xFF

/-- Writing by address; addresses outside the video unit ignore the value. -/
def writeAt (video : Video) (address : UInt16) (value : UInt8) : Video :=
  match Register.at? address with
  | some register => video.write register value
  | none => video

end Handheld.Video
