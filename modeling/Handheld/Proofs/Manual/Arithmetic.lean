import Handheld.Cpu.Registers
import Mathlib.Algebra.GroupWithZero.Nat

/-! The arithmetic of the processor as its manual describes it: results are numbers that wrap
at the size of their register, and every flag is a fact about numbers.
-/

namespace Handheld.Manual

-- one instance each, so that the numerals of digits and codes mean the same in every module
scoped instance neZeroFour : NeZero 4 :=
  ⟨by decide⟩

scoped instance neZeroEight : NeZero 8 :=
  ⟨by decide⟩

-----------------------------------------------------------------------------------------
-- Bytes and words
-----------------------------------------------------------------------------------------

/-- The byte in the upper half of a word. -/
def upper (word : UInt16) : UInt8 :=
  .ofNat (word.toNat / 256)

/-- The byte in the lower half of a word. -/
def lower (word : UInt16) : UInt8 :=
  .ofNat (word.toNat % 256)

/-- The word with two given halves. -/
def join (upper lower : UInt8) : UInt16 :=
  .ofNat (256 * upper.toNat + lower.toNat)

/-- A byte as a number from -128 to 127. -/
def signed (byte : UInt8) : Int :=
  if byte.toNat < 128 then byte.toNat else byte.toNat - 256

/-- A word moved by a signed distance. -/
def displace (word : UInt16) (distance : UInt8) : UInt16 :=
  .ofInt (word.toNat + signed distance)

/-- One bit of a byte. -/
def bit (byte : UInt8) (place : Fin 8) : Bool :=
  byte.toNat / 2 ^ place.val % 2 = 1

/-- A byte with one bit replaced: its weight is taken away if it counts, and added if it shall.
-/
def withBit (byte : UInt8) (place : Fin 8) (value : Bool) : UInt8 :=
  .ofNat (byte.toNat - (bit byte place).toNat * 2 ^ place.val + value.toNat * 2 ^ place.val)

/-- The byte that holds the flags, from Z in the highest bit down to C. -/
def flagByte (flags : Flags) : UInt8 :=
  .ofNat (128 * flags.zero.toNat + 64 * flags.subtract.toNat + 32 * flags.half.toNat
    + 16 * flags.carry.toNat)

/-- The flags that a byte holds. -/
def flagsOf (byte : UInt8) : Flags :=
  { zero := bit byte 7, subtract := bit byte 6, half := bit byte 5, carry := bit byte 4 }

-----------------------------------------------------------------------------------------
-- Results with their flags
-----------------------------------------------------------------------------------------

/-- A sum. H is a carry out of the low digit, C one out of the byte. -/
def sum (a value : UInt8) (carry : Nat) : UInt8 × Flags :=
  let result := a.toNat + value.toNat + carry
  (.ofNat result,
    { zero := result % 256 = 0
      subtract := false
      half := a.toNat % 16 + value.toNat % 16 + carry ≥ 16
      carry := result ≥ 256 })

/-- A difference. H is a borrow into the low digit, C one into the byte. -/
def difference (a value : UInt8) (borrow : Nat) : UInt8 × Flags :=
  let result : Int := a.toNat - value.toNat - borrow
  (.ofInt result,
    { zero := result % 256 = 0
      subtract := true
      half := (a.toNat % 16 : Int) - (value.toNat % 16 : Int) - borrow < 0
      carry := result < 0 })

/-- The result of a bitwise operation. -/
def bitwise (result : UInt8) (half : Bool) : UInt8 × Flags :=
  (result, { zero := result.toNat = 0, subtract := false, half, carry := false })

/-- ADD, ADC, SUB, SBC, AND, XOR, OR and CP, in the order of their codes. CP is a subtraction
whose result is dropped.
-/
def alu (code : Fin 8) (a value : UInt8) (flags : Flags) : UInt8 × Flags :=
  match code with
  | 0 => sum a value 0
  | 1 => sum a value flags.carry.toNat
  | 2 => difference a value 0
  | 3 => difference a value flags.carry.toNat
  | 4 => bitwise (a &&& value) true
  | 5 => bitwise (a ^^^ value) false
  | 6 => bitwise (a ||| value) false
  | 7 => (a, (difference a value 0).2)

/-- INC of a byte. C stays. -/
def increment (value : UInt8) (flags : Flags) : UInt8 × Flags :=
  (.ofNat (value.toNat + 1),
    { flags with zero := value.toNat = 255, subtract := false, half := value.toNat % 16 = 15 })

/-- DEC of a byte. C stays. -/
def decrement (value : UInt8) (flags : Flags) : UInt8 × Flags :=
  (.ofInt (value.toNat - 1),
    { flags with zero := value.toNat = 1, subtract := true, half := value.toNat % 16 = 0 })

/-- ADD of words. H is a carry out of bit 11, C one out of bit 15, and Z stays. -/
def sumOfWords (left right : UInt16) (flags : Flags) : UInt16 × Flags :=
  (.ofNat (left.toNat + right.toNat),
    { flags with
      subtract := false
      half := left.toNat % 4096 + right.toNat % 4096 ≥ 4096
      carry := left.toNat + right.toNat ≥ 65536 })

/-- The stack pointer moved by a signed distance. H and C come from adding the distance's byte
to the lower one of the pointer.
-/
def sumWithDistance (sp : UInt16) (distance : UInt8) : UInt16 × Flags :=
  (displace sp distance,
    { zero := false
      subtract := false
      half := sp.toNat % 16 + distance.toNat % 16 ≥ 16
      carry := sp.toNat % 256 + distance.toNat ≥ 256 })

/-- DAA. A digit that is out of range, or whose addition or subtraction carried, is corrected
by six.
-/
def decimal (a : UInt8) (flags : Flags) : UInt8 × Flags :=
  let ones := flags.half ∨ ¬flags.subtract ∧ a.toNat % 16 > 9
  let tens := flags.carry ∨ ¬flags.subtract ∧ a.toNat > 0x99
  let correction : Int := (if ones then 0x06 else 0) + (if tens then 0x60 else 0)
  let result : Int := if flags.subtract then a.toNat - correction else a.toNat + correction
  (.ofInt result,
    { zero := result % 256 = 0, subtract := flags.subtract, half := false, carry := tens })

/-- RLC, RRC, RL, RR, SLA, SRA, SWAP and SRL, in the order of their codes: the shifted byte and
the bit that falls out.
-/
def shift (code : Fin 8) (value : UInt8) (carry : Bool) : UInt8 × Bool :=
  let number := value.toNat
  let top := number / 128
  let bottom := number % 2
  match code with
  | 0 => (.ofNat (number * 2 + top), top = 1)
  | 1 => (.ofNat (number / 2 + 128 * bottom), bottom = 1)
  | 2 => (.ofNat (number * 2 + carry.toNat), top = 1)
  | 3 => (.ofNat (number / 2 + 128 * carry.toNat), bottom = 1)
  | 4 => (.ofNat (number * 2), top = 1)
  | 5 => (.ofNat (number / 2 + 128 * top), bottom = 1)
  | 6 => (.ofNat (number % 16 * 16 + number / 16), false)
  | 7 => (.ofNat (number / 2), bottom = 1)

/-- A shift of the extended page, with its flags. -/
def shiftWithFlags (code : Fin 8) (value : UInt8) (flags : Flags) : UInt8 × Flags :=
  let (result, out) := shift code value flags.carry
  (result, { zero := result.toNat = 0, subtract := false, half := false, carry := out })

end Handheld.Manual
