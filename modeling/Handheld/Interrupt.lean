/-! The five interrupt sources, their request bits and handler addresses. Requests and
enables are bytes with one bit per source; the lowest requested bit is served first.
-/

namespace Handheld

/-- A source of interrupts, in order of priority. -/
inductive Interrupt where
  | vblank
  | lcdStatus
  | timer
  | serial
  | joypad
  deriving DecidableEq, Repr

namespace Interrupt

/-- All sources, highest priority first. -/
def all : List Interrupt :=
  [.vblank, .lcdStatus, .timer, .serial, .joypad]

/-- The bit of a source in the request and enable bytes. -/
def mask : Interrupt → UInt8
  | .vblank => 0x01
  | .lcdStatus => 0x02
  | .timer => 0x04
  | .serial => 0x08
  | .joypad => 0x10

/-- Where the handler of a source starts. -/
def vector : Interrupt → UInt16
  | .vblank => 0x40
  | .lcdStatus => 0x48
  | .timer => 0x50
  | .serial => 0x58
  | .joypad => 0x60

/-- Whether a byte of requests contains a source. -/
def isIn (source : Interrupt) (requests : UInt8) : Bool :=
  requests &&& source.mask != 0

def pending (raised enabled : UInt8) : UInt8 :=
  raised &&& enabled &&& 0x1F

/-- The source to serve first among some requests. -/
def first? (requests : UInt8) : Option Interrupt :=
  all.find? (·.isIn requests)

/-- Requests with one source added when a condition holds. -/
def raiseIf (source : Interrupt) (condition : Bool) (requests : UInt8) : UInt8 :=
  if condition then requests ||| source.mask else requests

end Interrupt

end Handheld
