import Handheld.Text.Hex

/-! The registers of the processor, singly, in pairs, and as flags. -/

namespace Handheld

/-- The four condition flags. -/
structure Flags where
  zero : Bool
  subtract : Bool
  half : Bool
  carry : Bool
  deriving DecidableEq, Repr

def Flags.bit (mask : UInt8) (flag : Bool) : UInt8 :=
  if flag then mask else 0

/-- The flag register that holds these flags; its low four bits are clear. -/
def Flags.toByte (flags : Flags) : UInt8 :=
  bit 0x80 flags.zero ||| bit 0x40 flags.subtract ||| bit 0x20 flags.half
    ||| bit 0x10 flags.carry

def Flags.ofByte (byte : UInt8) : Flags :=
  { zero := byte &&& 0x80 != 0
    subtract := byte &&& 0x40 != 0
    half := byte &&& 0x20 != 0
    carry := byte &&& 0x10 != 0 }

/-- Registers and running state of the processor. -/
structure Cpu where
  a : UInt8
  f : UInt8
  b : UInt8
  c : UInt8
  d : UInt8
  e : UInt8
  h : UInt8
  l : UInt8
  pc : UInt16
  sp : UInt16
  /-- Machine cycles run so far. The count has no bound. It stands for a counter of 64 bits for as
  long as that has not been filled.
  -/
  cycles : Nat
  /-- Whether interrupts are served at all. -/
  interruptsOn : Bool
  halted : Bool
  stopped : Bool
  /-- Instructions until interrupts are switched on, or zero if that is not planned. -/
  enableDelay : UInt8
  /-- Machine cycles of the most recent instruction. -/
  lastCycles : Nat
  deriving DecidableEq, Repr

/-- Two bytes as one word, high byte first. -/
def wordOf (high low : UInt8) : UInt16 :=
  high.toUInt16 <<< 8 ||| low.toUInt16

def highByte (word : UInt16) : UInt8 :=
  (word >>> 8).toUInt8

def lowByte (word : UInt16) : UInt8 :=
  word.toUInt8

/-- The single registers that instructions name. -/
inductive ByteRegister where
  | b
  | c
  | d
  | e
  | h
  | l
  | a
  deriving DecidableEq, Repr

/-- The register pairs of word arithmetic. -/
inductive WordRegister where
  | bc
  | de
  | hl
  | sp
  deriving DecidableEq, Repr

/-- The register pairs that go through the stack. -/
inductive StackRegister where
  | bc
  | de
  | hl
  | af
  deriving DecidableEq, Repr

namespace Cpu

/-- The processor with cleared registers, about to run start-up code. -/
def powerOn : Cpu :=
  { a := 0, f := 0, b := 0, c := 0, d := 0, e := 0, h := 0, l := 0
    pc := 0, sp := 0, cycles := 0, interruptsOn := false, halted := false, stopped := false
    enableDelay := 0, lastCycles := 0 }

/-- The processor as start-up code leaves it. -/
def afterBoot : Cpu :=
  { powerOn with
    a := 0x01, f := 0xB0, b := 0x00, c := 0x13, d := 0x00, e := 0xD8, h := 0x01, l := 0x4D
    pc := 0x0100, sp := 0xFFFE }

instance : Inhabited Cpu :=
  ⟨powerOn⟩

def flags (cpu : Cpu) : Flags :=
  .ofByte cpu.f

def setFlags (cpu : Cpu) (flags : Flags) : Cpu :=
  { cpu with f := flags.toByte }

def af (cpu : Cpu) : UInt16 :=
  wordOf cpu.a cpu.f

def bc (cpu : Cpu) : UInt16 :=
  wordOf cpu.b cpu.c

def de (cpu : Cpu) : UInt16 :=
  wordOf cpu.d cpu.e

def hl (cpu : Cpu) : UInt16 :=
  wordOf cpu.h cpu.l

/-- The processor with accumulator and flags replaced; only the four flag bits are kept. -/
def setAf (cpu : Cpu) (value : UInt16) : Cpu :=
  { cpu with a := highByte value, f := lowByte value &&& 0xF0 }

def setBc (cpu : Cpu) (value : UInt16) : Cpu :=
  { cpu with b := highByte value, c := lowByte value }

def setDe (cpu : Cpu) (value : UInt16) : Cpu :=
  { cpu with d := highByte value, e := lowByte value }

def setHl (cpu : Cpu) (value : UInt16) : Cpu :=
  { cpu with h := highByte value, l := lowByte value }

def byte (cpu : Cpu) : ByteRegister → UInt8
  | .b => cpu.b
  | .c => cpu.c
  | .d => cpu.d
  | .e => cpu.e
  | .h => cpu.h
  | .l => cpu.l
  | .a => cpu.a

/-- The processor with a single register replaced. -/
def setByte (cpu : Cpu) (register : ByteRegister) (value : UInt8) : Cpu :=
  match register with
  | .b => { cpu with b := value }
  | .c => { cpu with c := value }
  | .d => { cpu with d := value }
  | .e => { cpu with e := value }
  | .h => { cpu with h := value }
  | .l => { cpu with l := value }
  | .a => { cpu with a := value }

def word (cpu : Cpu) : WordRegister → UInt16
  | .bc => cpu.bc
  | .de => cpu.de
  | .hl => cpu.hl
  | .sp => cpu.sp

def setWord (cpu : Cpu) (register : WordRegister) (value : UInt16) : Cpu :=
  match register with
  | .bc => cpu.setBc value
  | .de => cpu.setDe value
  | .hl => cpu.setHl value
  | .sp => { cpu with sp := value }

/-- The value pushed for a stack register; the low flag bits are pushed as zeros. -/
def stackWord (cpu : Cpu) : StackRegister → UInt16
  | .bc => cpu.bc
  | .de => cpu.de
  | .hl => cpu.hl
  | .af => cpu.af &&& 0xFFF0

def setStackWord (cpu : Cpu) (register : StackRegister) (value : UInt16) : Cpu :=
  match register with
  | .bc => cpu.setBc value
  | .de => cpu.setDe value
  | .hl => cpu.setHl value
  | .af => cpu.setAf value

def listing (cpu : Cpu) : String :=
  "AF:" ++ Hex.word cpu.af ++ " BC:" ++ Hex.word cpu.bc ++ " DE:" ++ Hex.word cpu.de
    ++ " HL:" ++ Hex.word cpu.hl ++ " PC:" ++ Hex.word cpu.pc ++ " SP:" ++ Hex.word cpu.sp
    ++ " IME:" ++ (if cpu.interruptsOn then "1" else "0") ++ " CY:" ++ toString cpu.cycles

end Cpu

end Handheld
