import Handheld.Cpu.Registers

/-! Byte and word arithmetic with the flags each operation sets. -/

namespace Handheld.Arithmetic

def carryIn (carry : Bool) : Nat :=
  if carry then 1 else 0

def add (a value : UInt8) (carry : Bool) : UInt8 × Flags :=
  let result := a + value + UInt8.ofNat (carryIn carry)
  (result,
    { zero := result == 0
      subtract := false
      half := a.toNat % 16 + value.toNat % 16 + carryIn carry > 0x0F
      carry := a.toNat + value.toNat + carryIn carry > 0xFF })

def sub (a value : UInt8) (carry : Bool) : UInt8 × Flags :=
  let result := a - value - UInt8.ofNat (carryIn carry)
  (result,
    { zero := result == 0
      subtract := true
      half := a.toNat % 16 < value.toNat % 16 + carryIn carry
      carry := a.toNat < value.toNat + carryIn carry })

def logical (result : UInt8) (half : Bool) : UInt8 × Flags :=
  (result, { zero := result == 0, subtract := false, half, carry := false })

/-- The increment of a byte; the carry flag is kept. -/
def increment (value : UInt8) (flags : Flags) : UInt8 × Flags :=
  let result := value + 1
  (result, { flags with zero := result == 0, subtract := false, half := value &&& 0x0F == 0x0F })

/-- The decrement of a byte; the carry flag is kept. -/
def decrement (value : UInt8) (flags : Flags) : UInt8 × Flags :=
  let result := value - 1
  (result, { flags with zero := result == 0, subtract := true, half := value &&& 0x0F == 0 })

/-- Addition of words; the zero flag is kept. -/
def addWords (left right : UInt16) (flags : Flags) : UInt16 × Flags :=
  (left + right,
    { flags with
      subtract := false
      half := left.toNat % 0x1000 + right.toNat % 0x1000 > 0x0FFF
      carry := left.toNat + right.toNat > 0xFFFF })

/-- A byte as a signed offset to a word. -/
def signExtend (offset : UInt8) : UInt16 :=
  if offset < 0x80 then offset.toUInt16 else offset.toUInt16 ||| 0xFF00

/-- A word plus a signed offset. The carries are those of the low byte. -/
def addOffset (base : UInt16) (offset : UInt8) : UInt16 × Flags :=
  (base + signExtend offset,
    { zero := false
      subtract := false
      half := base.toNat % 16 + offset.toNat % 16 > 0x0F
      carry := base.toNat % 256 + offset.toNat > 0xFF })

/-- The correction of a binary result to packed decimal. -/
def decimalAdjust (a : UInt8) (flags : Flags) : UInt8 × Flags :=
  let low := flags.half || (!flags.subtract && (a &&& 0x0F) > 9)
  let high := flags.carry || (!flags.subtract && a > 0x99)
  let correction : UInt8 := (if low then 0x06 else 0) ||| (if high then 0x60 else 0)
  let result := if flags.subtract then a - correction else a + correction
  (result, { zero := result == 0, subtract := flags.subtract, half := false, carry := high })

end Handheld.Arithmetic

namespace Handheld

/-- The operations between the accumulator and an operand. -/
inductive AluOp where
  | add
  | adc
  | sub
  | sbc
  | and
  | xor
  | or
  | cp
  deriving DecidableEq, Repr

/-- The new accumulator and flags. Comparison keeps the accumulator. -/
def AluOp.apply (op : AluOp) (a value : UInt8) (carry : Bool) : UInt8 × Flags :=
  match op with
  | .add => Arithmetic.add a value false
  | .adc => Arithmetic.add a value carry
  | .sub => Arithmetic.sub a value false
  | .sbc => Arithmetic.sub a value carry
  | .and => Arithmetic.logical (a &&& value) true
  | .xor => Arithmetic.logical (a ^^^ value) false
  | .or => Arithmetic.logical (a ||| value) false
  | .cp => (a, (Arithmetic.sub a value false).2)

/-- The rotations and shifts of a byte. -/
inductive ShiftOp where
  | rlc
  | rrc
  | rl
  | rr
  | sla
  | sra
  | swap
  | srl
  deriving DecidableEq, Repr

/-- The shifted byte and the bit shifted out, given the carry to shift in. -/
def ShiftOp.shift (op : ShiftOp) (value : UInt8) (carry : Bool) : UInt8 × Bool :=
  let top := value &&& 0x80 != 0
  let bottom := value &&& 0x01 != 0
  match op with
  | .rlc => (value <<< 1 ||| value >>> 7, top)
  | .rrc => (value >>> 1 ||| value <<< 7, bottom)
  | .rl => (value <<< 1 ||| (if carry then 0x01 else 0), top)
  | .rr => (value >>> 1 ||| (if carry then 0x80 else 0), bottom)
  | .sla => (value <<< 1, top)
  | .sra => (value >>> 1 ||| (value &&& 0x80), bottom)
  | .swap => (value <<< 4 ||| value >>> 4, false)
  | .srl => (value >>> 1, bottom)

def ShiftOp.apply (op : ShiftOp) (value : UInt8) (carry : Bool) : UInt8 × Flags :=
  let (result, out) := op.shift value carry
  (result, { zero := result == 0, subtract := false, half := false, carry := out })

end Handheld
