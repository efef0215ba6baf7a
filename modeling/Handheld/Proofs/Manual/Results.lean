import Handheld.Cpu.Opcode
import Handheld.Proofs.Manual.Arithmetic

/-! The processor computes what its manual says: word by word and flag by flag, the operations
on bytes give the numbers of the manual.
-/

namespace Handheld.Manual

-----------------------------------------------------------------------------------------
-- Numbers behind bytes and words
-----------------------------------------------------------------------------------------

/-- A number wraps at the size of a byte. -/
theorem toNat_byte_ofInt (number : Int)
    : (UInt8.ofInt number).toNat = (number % 256).toNat := by
  have below : (number % 256).toNat < 256 := by omega
  exact UInt8.toNat_ofNat_of_lt' below

/-- A number wraps at the size of a word. -/
theorem toNat_word_ofInt (number : Int)
    : (UInt16.ofInt number).toNat = (number % 65536).toNat := by
  have below : (number % 65536).toNat < 65536 := by omega
  exact UInt16.toNat_ofNat_of_lt' below

/-- A number is the bytes that make it up, put together, when these have no bit in common. -/
theorem ofNat_eq_or {left right : UInt8} {number : Nat} (places : Nat)
    (above : 2 ^ places ∣ left.toNat) (below : right.toNat < 2 ^ places)
    (total : number % 256 = left.toNat + right.toNat)
    : UInt8.ofNat number = left ||| right := by
  obtain ⟨multiple, whole⟩ := above
  rw [← UInt8.toNat_inj, UInt8.toNat_or, UInt8.toNat_ofNat']
  rw [whole] at total ⊢
  rw [← Nat.two_pow_add_eq_or_of_lt below]
  exact total

/-- What holds of the first 256 numbers as bytes holds of every byte. -/
theorem forall_byte {property : UInt8 → Prop}
    (each : ∀ number : Fin 256, property (.ofNat number.val)) (byte : UInt8)
    : property byte := by
  simpa using each byte.toFin

-----------------------------------------------------------------------------------------
-- Halves of words, bits and flags
-----------------------------------------------------------------------------------------

theorem upper_eq (word : UInt16)
    : upper word = highByte word := by
  rw [← UInt8.toNat_inj]
  simp [upper, highByte, Nat.shiftRight_eq_div_pow]

theorem lower_eq (word : UInt16)
    : lower word = lowByte word := by
  rw [← UInt8.toNat_inj]
  simp [lower, lowByte]

theorem join_eq (high low : UInt8)
    : join high low = wordOf high low := by
  have below := low.toNat_lt
  have above := high.toNat_lt
  have shifted : high.toNat <<< 8 = 2 ^ 8 * high.toNat := by
    rw [Nat.shiftLeft_eq, Nat.mul_comm]
  rw [← UInt16.toNat_inj]
  simp only [join, wordOf, UInt16.toNat_ofNat', UInt16.toNat_or, UInt16.toNat_shiftLeft,
    UInt8.toNat_toUInt16]
  change (256 * high.toNat + low.toNat) % 65536 = high.toNat <<< 8 % 65536 ||| low.toNat
  rw [shifted, Nat.mod_eq_of_lt (by omega : 2 ^ 8 * high.toNat < 65536),
    ← Nat.two_pow_add_eq_or_of_lt below]
  omega

theorem upper_join (high low : UInt8)
    : upper (join high low) = high := by
  have above := high.toNat_lt
  have below := low.toNat_lt
  rw [← UInt8.toNat_inj]
  simp only [upper, join, UInt8.toNat_ofNat', UInt16.toNat_ofNat']
  omega

theorem lower_join (high low : UInt8)
    : lower (join high low) = low := by
  have below := low.toNat_lt
  rw [← UInt8.toNat_inj]
  simp only [lower, join, UInt8.toNat_ofNat', UInt16.toNat_ofNat']
  omega

/-- A mask with a single bit finds that bit. -/
theorem bit_eq (byte : UInt8) (place : Fin 8)
    : bit byte place = (byte &&& (1 <<< UInt8.ofNat place.val) != 0) := by
  revert place byte
  refine forall_byte ?_
  decide +kernel

theorem not_bit_eq (byte : UInt8) (place : Fin 8)
    : (!bit byte place) = (byte &&& (1 <<< UInt8.ofNat place.val) == 0) := by
  rw [bit_eq, bne, Bool.not_not]

theorem flagsOf_eq (byte : UInt8)
    : flagsOf byte = .ofByte byte := by
  simp only [flagsOf, Flags.ofByte, bit_eq]
  rfl

/-- The flag register holds the flags that were put into it. -/
@[simp]
theorem flagsOf_toByte (flags : Flags)
    : flagsOf flags.toByte = flags := by
  obtain ⟨zero, subtract, half, carry⟩ := flags
  revert zero subtract half carry
  decide

/-- The lower four bits of the flag register hold no flag. -/
theorem flagsOf_and (byte : UInt8)
    : flagsOf (byte &&& 0xF0) = flagsOf byte := by
  revert byte
  refine forall_byte ?_
  decide +kernel

/-- What is pushed for the flag register is the byte of its flags. -/
theorem flagByte_flagsOf (byte : UInt8)
    : flagByte (flagsOf byte) = byte &&& 0xF0 := by
  revert byte
  refine forall_byte ?_
  decide +kernel

/-- It is the byte that the processor makes of them. -/
theorem flagByte_eq (flags : Flags)
    : flagByte flags = flags.toByte := by
  obtain ⟨zero, subtract, half, carry⟩ := flags
  revert zero subtract half carry
  decide

/-- The upper half of a byte is all there is when the lower half is clear. -/
theorem and_upper_of_clear (byte : UInt8) (clear : byte &&& 0x0F = 0)
    : byte &&& 0xF0 = byte := by
  revert clear
  revert byte
  refine forall_byte ?_
  decide +kernel

/-- The lower four bits of a word lie in its lower half. -/
theorem wordOf_and (high low : UInt8)
    : wordOf high low &&& 0xFFF0 = wordOf high (low &&& 0xF0) := by
  have upper : (high.toUInt16 <<< 8 &&& 0xFFF0).toNat = (high.toUInt16 <<< 8).toNat := by
    revert high
    refine forall_byte ?_
    decide +kernel
  have lower : (low.toUInt16 &&& 0xFFF0).toNat = (low &&& 0xF0).toUInt16.toNat := by
    revert low
    refine forall_byte ?_
    decide +kernel
  rw [UInt16.toNat_and] at upper lower
  rw [← UInt16.toNat_inj, wordOf, wordOf, UInt16.toNat_and, UInt16.toNat_or, UInt16.toNat_or,
    Nat.and_or_distrib_right, upper, lower]

theorem withBit_false (byte : UInt8) (place : Fin 8)
    : withBit byte place false = byte &&& ~~~(1 <<< UInt8.ofNat place.val) := by
  revert place byte
  refine forall_byte ?_
  decide +kernel

theorem withBit_true (byte : UInt8) (place : Fin 8)
    : withBit byte place true = byte ||| (1 <<< UInt8.ofNat place.val) := by
  revert place byte
  refine forall_byte ?_
  decide +kernel

-----------------------------------------------------------------------------------------
-- Sums and differences
-----------------------------------------------------------------------------------------

/-- Bytes are compared as numbers. -/
theorem beq_eq_decide (left right : UInt8)
    : (left == right) = decide (left.toNat = right.toNat) := by
  rw [Bool.eq_iff_iff, beq_iff_eq, decide_eq_true_iff, UInt8.toNat_inj]

theorem toNat_and_digit (byte : UInt8)
    : (byte &&& 0x0F).toNat = byte.toNat % 16 := by
  rw [UInt8.toNat_and]
  exact Nat.and_two_pow_sub_one_eq_mod byte.toNat 4

theorem carryIn_eq (carry : Bool)
    : Arithmetic.carryIn carry = carry.toNat := by
  cases carry <;> rfl

theorem sum_eq (a value : UInt8) (carry : Bool)
    : sum a value carry.toNat = Arithmetic.add a value carry := by
  have result : UInt8.ofNat (a.toNat + value.toNat + carry.toNat)
      = a + value + UInt8.ofNat carry.toNat := by
    rw [← UInt8.toNat_inj]
    simp
  simp only [sum, Arithmetic.add, carryIn_eq, beq_eq_decide, ← result, UInt8.toNat_ofNat',
    Nat.reducePow, gt_iff_lt, ge_iff_le, Nat.lt_iff_add_one_le]
  rfl

theorem difference_eq (a value : UInt8) (carry : Bool)
    : difference a value carry.toNat = Arithmetic.sub a value carry := by
  have above := a.toNat_lt
  have below := value.toNat_lt
  have digit := Bool.toNat_le carry
  have result : UInt8.ofInt (a.toNat - value.toNat - carry.toNat)
      = a - value - UInt8.ofNat carry.toNat := by
    rw [← UInt8.toNat_inj, toNat_byte_ofInt]
    simp only [UInt8.toNat_sub, UInt8.toNat_ofNat']
    omega
  have zero : ((a.toNat : Int) - value.toNat - carry.toNat) % 256 = 0
      ↔ (a - value - UInt8.ofNat carry.toNat).toNat = 0 := by
    rw [← result, toNat_byte_ofInt]
    omega
  have half : (a.toNat % 16 : Int) - (value.toNat % 16 : Int) - carry.toNat < 0
      ↔ a.toNat % 16 < value.toNat % 16 + carry.toNat := by omega
  have borrow : (a.toNat : Int) - value.toNat - carry.toNat < 0
      ↔ a.toNat < value.toNat + carry.toNat := by omega
  simp only [difference, Arithmetic.sub, carryIn_eq, beq_eq_decide, result, zero, half, borrow]
  rfl

theorem bitwise_eq (result : UInt8) (half : Bool)
    : bitwise result half = Arithmetic.logical result half := by
  simp only [bitwise, Arithmetic.logical, beq_eq_decide]
  rfl

/-- The operations between the accumulator and an operand, in the order of their codes. -/
def aluOps : Vector AluOp 8 :=
  #v[.add, .adc, .sub, .sbc, .and, .xor, .or, .cp]

/-- Every operation gives what its code stands for, by cases of the code. -/
theorem alu_eq (code : Fin 8) (a value : UInt8) (flags : Flags)
    : alu code a value flags = (aluOps.get code).apply a value flags.carry :=
  match code with
  | 0 => sum_eq a value false
  | 1 => sum_eq a value flags.carry
  | 2 => difference_eq a value false
  | 3 => difference_eq a value flags.carry
  | 4 => bitwise_eq _ true
  | 5 => bitwise_eq _ false
  | 6 => bitwise_eq _ false
  | 7 => congrArg (fun result => (a, result.2)) (difference_eq a value false)

theorem increment_eq (value : UInt8) (flags : Flags)
    : increment value flags = Arithmetic.increment value flags := by
  have above := value.toNat_lt
  have result : UInt8.ofNat (value.toNat + 1) = value + 1 := by
    rw [← UInt8.toNat_inj]
    simp
  have zero : value.toNat = 255 ↔ (value + 1).toNat = (0 : UInt8).toNat := by
    rw [← result, UInt8.toNat_ofNat']
    change _ ↔ _ = 0
    omega
  simp only [increment, Arithmetic.increment, beq_eq_decide, toNat_and_digit, result, zero]
  rfl

theorem decrement_eq (value : UInt8) (flags : Flags)
    : decrement value flags = Arithmetic.decrement value flags := by
  have above := value.toNat_lt
  have result : UInt8.ofInt (value.toNat - 1) = value - 1 := by
    rw [← UInt8.toNat_inj, toNat_byte_ofInt, UInt8.toNat_sub]
    change _ = (2 ^ 8 - 1 + value.toNat) % 2 ^ 8
    omega
  have zero : value.toNat = 1 ↔ (value - 1).toNat = (0 : UInt8).toNat := by
    rw [← result, toNat_byte_ofInt]
    change _ ↔ _ = 0
    omega
  simp only [decrement, Arithmetic.decrement, beq_eq_decide, toNat_and_digit, result, zero]
  rfl

theorem sumOfWords_eq (left right : UInt16) (flags : Flags)
    : sumOfWords left right flags = Arithmetic.addWords left right flags := by
  have result : UInt16.ofNat (left.toNat + right.toNat) = left + right := by
    rw [← UInt16.toNat_inj]
    simp
  simp only [sumOfWords, Arithmetic.addWords, result]
  rfl

/-- The upper half of a negative distance consists of ones. -/
theorem signExtend_eq (distance : UInt8)
    : Arithmetic.signExtend distance = .ofInt (signed distance) := by
  revert distance
  refine forall_byte ?_
  decide +kernel

theorem displace_eq (word : UInt16) (distance : UInt8)
    : displace word distance = word + Arithmetic.signExtend distance := by
  rw [signExtend_eq, ← UInt16.toNat_inj, displace, UInt16.toNat_add, toNat_word_ofInt,
    toNat_word_ofInt]
  omega

theorem sumWithDistance_eq (sp : UInt16) (distance : UInt8)
    : sumWithDistance sp distance = Arithmetic.addOffset sp distance := by
  simp only [sumWithDistance, Arithmetic.addOffset, displace_eq]
  rfl

/-- The digits of a correction are six or zero, so putting them together adds them. -/
theorem toNat_correction (ones tens : Bool)
    : ((if ones then 0x06 else 0) ||| (if tens then 0x60 else 0) : UInt8).toNat
      = 6 * ones.toNat + 96 * tens.toNat := by
  revert ones tens
  decide

theorem decimal_eq (a : UInt8) (flags : Flags)
    : decimal a flags = Arithmetic.decimalAdjust a flags := by
  obtain ⟨zero, subtract, half, carry⟩ := flags
  have ones : (half = true ∨ ¬subtract = true ∧ a.toNat % 16 > 9)
      ↔ (half || !subtract && decide (a &&& 0x0F > 9)) = true := by
    rw [← toNat_and_digit]
    simp [UInt8.lt_iff_toNat_lt]
  have tens : (carry = true ∨ ¬subtract = true ∧ a.toNat > 0x99)
      ↔ (carry || !subtract && decide (a > 0x99)) = true := by
    simp [UInt8.lt_iff_toNat_lt]
  simp only [decimal, Arithmetic.decimalAdjust, beq_eq_decide, ones, tens]
  generalize (half || !subtract && decide (a &&& 0x0F > 9)) = low
  generalize (carry || !subtract && decide (a > 0x99)) = high
  have corrected : UInt8.ofInt
        (if subtract = true then
          (a.toNat : Int) - ((if low then 0x06 else 0) + (if high then 0x60 else 0))
        else a.toNat + ((if low then 0x06 else 0) + (if high then 0x60 else 0)))
      = if subtract = true then a - ((if low then 0x06 else 0) ||| (if high then 0x60 else 0))
        else a + ((if low then 0x06 else 0) ||| (if high then 0x60 else 0)) := by
    have below := a.toNat_lt
    rw [← UInt8.toNat_inj, toNat_byte_ofInt]
    have correction := toNat_correction low high
    cases subtract
    · simp only [Bool.false_eq_true, if_false]
      rw [UInt8.toNat_add, correction]
      cases low <;> cases high <;> simp <;> omega
    · simp only [if_true]
      rw [UInt8.toNat_sub, correction]
      cases low <;> cases high <;> simp <;> omega
  have zeroed (number : Int)
      : (number % 256 = 0) = ((UInt8.ofInt number).toNat = (0 : UInt8).toNat) := by
    rw [toNat_byte_ofInt, eq_iff_iff]
    change _ ↔ _ = 0
    omega
  simp only [zeroed, corrected, Bool.decide_eq_true]

-----------------------------------------------------------------------------------------
-- Shifts
-----------------------------------------------------------------------------------------

/-- The bit that leaves at the top. -/
theorem top_eq (value : UInt8)
    : decide (value.toNat / 128 = 1) = (value &&& 0x80 != 0) := by
  have below := value.toNat_lt
  have single : value.toNat / 128 % 2 = value.toNat / 128 := by omega
  have found : bit value 7 = (value &&& 0x80 != 0) := bit_eq value 7
  rw [← found, bit]
  change _ = decide (value.toNat / 128 % 2 = 1)
  rw [single]

/-- The bit that leaves at the bottom. -/
theorem bottom_eq (value : UInt8)
    : decide (value.toNat % 2 = 1) = (value &&& 0x01 != 0) := by
  have found : bit value 0 = (value &&& 0x01 != 0) := bit_eq value 0
  rw [← found, bit]
  change _ = decide (value.toNat / 1 % 2 = 1)
  rw [Nat.div_one]

theorem toNat_left (value : UInt8) (places : Fin 8)
    : (value <<< UInt8.ofNat places.val).toNat = value.toNat * 2 ^ places.val % 256 := by
  have small : (UInt8.ofNat places.val).toNat % 8 = places.val := by
    rw [UInt8.toNat_ofNat']
    omega
  rw [UInt8.toNat_shiftLeft, small, Nat.shiftLeft_eq]

theorem toNat_right (value : UInt8) (places : Fin 8)
    : (value >>> UInt8.ofNat places.val).toNat = value.toNat / 2 ^ places.val := by
  have small : (UInt8.ofNat places.val).toNat % 8 = places.val := by
    rw [UInt8.toNat_ofNat']
    omega
  rw [UInt8.toNat_shiftRight, small, Nat.shiftRight_eq_div_pow]

/-- The sign bit as a number. -/
theorem toNat_sign (value : UInt8)
    : (value &&& 0x80).toNat = 128 * (value.toNat / 128) := by
  revert value
  refine forall_byte ?_
  decide +kernel

/-- Every shift moves the bits as its code says, by cases of the code: the part that moves in
has no bit in common with the part that stays.
-/
theorem shift_eq (code : Fin 8) (value : UInt8) (carry : Bool)
    : shift code value carry = (Opcode.shifts.get code).shift value carry := by
  have below := value.toNat_lt
  have leftOne : (value <<< 1).toNat = value.toNat * 2 % 256 := toNat_left value 1
  have leftFour : (value <<< 4).toNat = value.toNat * 16 % 256 := toNat_left value 4
  have leftSeven : (value <<< 7).toNat = value.toNat * 128 % 256 := toNat_left value 7
  have rightOne : (value >>> 1).toNat = value.toNat / 2 := toNat_right value 1
  have rightFour : (value >>> 4).toNat = value.toNat / 16 := toNat_right value 4
  have rightSeven : (value >>> 7).toNat = value.toNat / 128 := toNat_right value 7
  have sign := toNat_sign value
  match code with
  | 0 =>
      refine Prod.ext ?_ (top_eq value)
      change UInt8.ofNat (value.toNat * 2 + value.toNat / 128) = value <<< 1 ||| value >>> 7
      apply ofNat_eq_or 1 <;> omega
  | 1 =>
      refine Prod.ext ?_ (bottom_eq value)
      change UInt8.ofNat (value.toNat / 2 + 128 * (value.toNat % 2)) = value >>> 1 ||| value <<< 7
      rw [UInt8.or_comm]
      apply ofNat_eq_or 7 <;> omega
  | 2 =>
      refine Prod.ext ?_ (top_eq value)
      change UInt8.ofNat (value.toNat * 2 + carry.toNat)
        = value <<< 1 ||| (if carry then 0x01 else 0)
      cases carry
      · apply ofNat_eq_or 1 <;> simp <;> omega
      · apply ofNat_eq_or 1 <;> simp <;> omega
  | 3 =>
      refine Prod.ext ?_ (bottom_eq value)
      change UInt8.ofNat (value.toNat / 2 + 128 * carry.toNat)
        = value >>> 1 ||| (if carry then 0x80 else 0)
      rw [UInt8.or_comm]
      cases carry
      · apply ofNat_eq_or 7 <;> simp <;> omega
      · apply ofNat_eq_or 7 <;> simp <;> omega
  | 4 =>
      refine Prod.ext ?_ (top_eq value)
      change UInt8.ofNat (value.toNat * 2) = value <<< 1
      rw [← UInt8.toNat_inj, leftOne]
      exact UInt8.toNat_ofNat'
  | 5 =>
      refine Prod.ext ?_ (bottom_eq value)
      change UInt8.ofNat (value.toNat / 2 + 128 * (value.toNat / 128))
        = value >>> 1 ||| value &&& 0x80
      rw [UInt8.or_comm]
      apply ofNat_eq_or 7 <;> omega
  | 6 =>
      refine Prod.ext ?_ rfl
      change UInt8.ofNat (value.toNat % 16 * 16 + value.toNat / 16) = value <<< 4 ||| value >>> 4
      apply ofNat_eq_or 4 <;> omega
  | 7 =>
      refine Prod.ext ?_ (bottom_eq value)
      change UInt8.ofNat (value.toNat / 2) = value >>> 1
      rw [← UInt8.toNat_inj, rightOne, UInt8.toNat_ofNat']
      omega

theorem shiftWithFlags_eq (code : Fin 8) (value : UInt8) (flags : Flags)
    : shiftWithFlags code value flags = (Opcode.shifts.get code).apply value flags.carry := by
  simp only [shiftWithFlags, shift_eq, ShiftOp.apply, beq_eq_decide]
  rfl

/-- The complement of a byte is what it lacks to 255. -/
theorem complement_eq (value : UInt8)
    : UInt8.ofNat (255 - value.toNat) = ~~~value := by
  have below := value.toNat_lt
  rw [← UInt8.toNat_inj, UInt8.toNat_ofNat', UInt8.toNat_not]
  change _ = 256 - 1 - value.toNat
  omega

end Handheld.Manual
