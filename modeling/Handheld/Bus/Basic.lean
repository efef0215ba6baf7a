import Handheld.Bus.Location
import Handheld.Cartridge.Basic
import Handheld.Joypad
import Handheld.Video.Timing

/-! The bus: everything that the processor reaches through addresses. -/

namespace Handheld

/-- What happens on access to a register that is not modelled. -/
inductive AccessPolicy where
  /-- The access fails. -/
  | strict
  /-- Reads give ones and writes are dropped. -/
  | bestEffort
  deriving DecidableEq, Repr

/-- Start-up code and whether it overlays the first page of the cartridge. -/
structure BootOverlay where
  code : Option ByteArray
  mapped : Bool

/-- The memories and devices behind the address space. -/
structure Bus where
  wram : Memory 0x2000
  hram : Memory 0x7F
  cartridge : Option Cartridge
  boot : BootOverlay
  /-- Interrupts asked for and not yet served. -/
  requests : UInt8
  /-- Interrupts that may be served. -/
  enables : UInt8
  video : Video
  timer : Timer
  joypad : Joypad
  policy : AccessPolicy
  /-- Which unmodelled registers were accessed, by their place in the register page. -/
  noted : Vector Bool 0x80

namespace Bus

/-- The bus at power on, without a cartridge. -/
def initial (policy : AccessPolicy) : Bus :=
  { wram := .zeroed 0x2000
    hram := .zeroed 0x7F
    cartridge := none
    boot := { code := none, mapped := false }
    requests := 0
    enables := 0
    video := .initial
    timer := .initial
    joypad := .initial
    policy
    noted := Vector.replicate 0x80 false }

instance : Inhabited Bus :=
  ⟨initial .strict⟩

/-- The bus as start-up code leaves it when it hands over to the cartridge. -/
def afterBoot (bus : Bus) : Bus :=
  { bus with
    video := bus.video.afterBoot
    requests := 0x01
    boot := { bus.boot with mapped := false } }

def insert (bus : Bus) (cartridge : Cartridge) : Bus :=
  { bus with cartridge := some cartridge }

def eject (bus : Bus) : Bus :=
  { bus with cartridge := none }

/-- The bus with start-up code overlaid on the first page. -/
def mapBoot (bus : Bus) (code : ByteArray) : Bus :=
  { bus with boot := { code := some code, mapped := true } }

/-- The bus with the overlay removed; the code itself is kept. -/
def unmapBoot (bus : Bus) : Bus :=
  { bus with boot := { bus.boot with mapped := false } }

/-- The bus with another policy for unmodelled registers. -/
def withPolicy (bus : Bus) (policy : AccessPolicy) : Bus :=
  { bus with policy }

/-- The bus after the video unit has run for some clocks, and whether it completed a
picture.
-/
def runVideo (bus : Bus) (clocks : Nat) : Bus × Bool :=
  let sweep := bus.video.advance clocks bus.requests
  ({ bus with video := sweep.video, requests := sweep.requests }, sweep.frameDone)

def runTimer (bus : Bus) (cycles : Nat) : Bus :=
  let (timer, overflowed) := bus.timer.tick cycles
  { bus with timer, requests := Interrupt.timer.raiseIf overflowed bus.requests }

def resetDivider (bus : Bus) : Bus :=
  { bus with timer := bus.timer.resetDivider }

/-- The bus with the request of one interrupt taken back. -/
def acknowledge (bus : Bus) (source : Interrupt) : Bus :=
  { bus with requests := bus.requests &&& ~~~source.mask }

/-- The bus with one key pressed or released. -/
def setButton (bus : Bus) (button : Button) (down : Bool) : Bus :=
  let (joypad, pressed) := bus.joypad.setButton button down
  { bus with joypad, requests := Interrupt.joypad.raiseIf pressed bus.requests }

def setKeys (bus : Bus) (keys : UInt8) : Bus :=
  let (joypad, pressed) := bus.joypad.setKeys keys
  { bus with joypad, requests := Interrupt.joypad.raiseIf pressed bus.requests }

end Bus

end Handheld
