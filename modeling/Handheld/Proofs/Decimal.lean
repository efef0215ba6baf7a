import Handheld.Proofs.Manual.Results
import Mathlib.Data.Nat.Digits.Defs

/-! Packed decimal numbers hold two digits in a byte, the byte with the lowest digits first. An
addition or subtraction of a byte and the correction after it are one column of written arithmetic
to base 100.
-/

namespace Handheld.Decimal

open Manual

-----------------------------------------------------------------------------------------
-- Packed numbers
-----------------------------------------------------------------------------------------

/-- Both halves of a byte are decimal digits. -/
def IsPacked (byte : UInt8) : Prop :=
  byte.toNat / 16 ≤ 9 ∧ byte.toNat % 16 ≤ 9

instance (byte : UInt8) : Decidable (IsPacked byte) :=
  inferInstanceAs (Decidable (_ ∧ _))

/-- The number that the two digits of a byte make. -/
def value (byte : UInt8) : Nat :=
  byte.toNat / 16 * 10 + byte.toNat % 16

/-- The byte with the two lowest digits of a number. -/
def pack (number : Nat) : UInt8 :=
  .ofNat (number / 10 % 10 * 16 + number % 10)

/-- The number that some bytes hold, lowest digits first. -/
def number (bytes : List UInt8) : Nat :=
  Nat.ofDigits 100 (bytes.map value)

/-- The lowest digits of a number in so many bytes. -/
def packed : Nat → Nat → List UInt8
  | 0, _ => []
  | count + 1, number => pack number :: packed count (number / 100)

variable {byte : UInt8} {bytes : List UInt8}

/-- A packed byte by its two digits. -/
theorem IsPacked.exists_digits (digits : IsPacked byte)
    : ∃ tens ones,
        tens ≤ 9 ∧ ones ≤ 9 ∧ byte.toNat = 16 * tens + ones ∧ value byte = 10 * tens + ones := by
  obtain ⟨smallTens, smallOnes⟩ := digits
  refine ⟨_, _, smallTens, smallOnes, by omega, ?_⟩
  unfold value
  omega

theorem IsPacked.value_lt (digits : IsPacked byte)
    : value byte < 100 := by
  obtain ⟨tens, ones, smallTens, smallOnes, -, number⟩ := digits.exists_digits
  omega

/-- A byte is that of a number when it has the two lowest digits of the number. -/
theorem eq_pack {number tens ones : Nat} (rest : Nat) (smallTens : tens ≤ 9) (smallOnes : ones ≤ 9)
    (holds : byte.toNat = 16 * tens + ones) (digits : number = 100 * rest + 10 * tens + ones)
    : byte = pack number := by
  have upper : number / 10 % 10 = tens := by omega
  have lower : number % 10 = ones := by omega
  have fits : tens * 16 + ones < 256 := by omega
  rw [← UInt8.toNat_inj, holds, pack, upper, lower, UInt8.toNat_ofNat_of_lt' fits, Nat.mul_comm]

/-- The byte of a number is packed and holds what is left when hundreds are taken off. -/
theorem pack_spec (number : Nat)
    : IsPacked (pack number) ∧ value (pack number) = number % 100 := by
  have fits : number / 10 % 10 * 16 + number % 10 < 256 := by omega
  rw [IsPacked, value, pack, UInt8.toNat_ofNat_of_lt' fits]
  omega

@[simp]
theorem number_cons (byte : UInt8) (rest : List UInt8)
    : number (byte :: rest) = value byte + 100 * number rest := by
  simp [number, Nat.ofDigits_cons]

theorem number_lt (digits : ∀ byte ∈ bytes, IsPacked byte)
    : number bytes < 100 ^ bytes.length := by
  rw [← List.length_map value]
  refine Nat.ofDigits_lt_base_pow_length (by decide) fun digit member => ?_
  obtain ⟨byte, inside, rfl⟩ := List.mem_map.mp member
  exact (digits byte inside).value_lt

/-- Packed bytes are those of the number that they hold, by induction on the bytes. -/
theorem packed_number (digits : ∀ byte ∈ bytes, IsPacked byte)
    : packed bytes.length (number bytes) = bytes := by
  induction bytes with
  | nil => rfl
  | cons byte rest ih =>
      obtain ⟨first, others⟩ := List.forall_mem_cons.mp digits
      obtain ⟨tens, ones, smallTens, smallOnes, holds, digits⟩ := first.exists_digits
      have lowest : byte = pack (value byte + 100 * number rest) :=
        eq_pack (number rest) smallTens smallOnes holds (by omega)
      have above : (value byte + 100 * number rest) / 100 = number rest := by
        omega
      rw [List.length_cons, packed, number_cons, ← lowest, above, ih others]

-----------------------------------------------------------------------------------------
-- Corrected sums and differences
-----------------------------------------------------------------------------------------

variable {left right : UInt8}

/-- A column of written addition: one digit is written down and another carried. -/
theorem exists_carry {total : Nat} (small : total ≤ 19)
    : ∃ carry digit, carry ≤ 1 ∧ digit ≤ 9 ∧ total = 10 * carry + digit :=
  ⟨total / 10, total % 10, by omega, by omega, by omega⟩

/-- A column of written subtraction: ten is borrowed when the digit is too small. -/
theorem exists_borrow {digit taken : Nat} (small : digit ≤ 9) (few : taken ≤ 10)
    : ∃ borrow rest, borrow ≤ 1 ∧ rest ≤ 9 ∧ digit + 10 * borrow = taken + rest := by
  rcases Nat.lt_or_ge digit taken with short | enough
  · exact ⟨1, digit + 10 - taken, by omega, by omega, by omega⟩
  · exact ⟨0, digit - taken, by omega, by omega, by omega⟩

/-- A correction is made when a digit is carried. -/
theorem correction_eq {digit : Nat} (single : digit ≤ 1) (weight : Int)
    : (if digit = 1 then weight else 0) = weight * digit := by
  obtain rfl | rfl := Nat.le_one_iff_eq_zero_or_eq_one.mp single
  · simp
  · simp

/-- Binary addition of two bytes is short by six for every digit that written addition carries from.
DAA finds these digits and adds what is missing.
-/
theorem corrects_sum {binary middle out tens ones : Nat} (single : middle ≤ 1) (last : out ≤ 1)
    (smallTens : tens ≤ 9) (smallOnes : ones ≤ 9)
    (whole : binary + 6 * middle = 160 * out + 16 * tens + ones)
    : (16 ≤ 10 * middle + ones ∨ 9 < binary % 2 ^ 8 % 16 ↔ middle = 1)
      ∧ (256 ≤ binary ∨ 0x99 < binary % 2 ^ 8 ↔ out = 1)
      ∧ (((binary % 2 ^ 8 : Nat) + (6 * middle + 96 * out) : Int) % 256).toNat
        = 16 * tens + ones := by
  obtain rfl | rfl := Nat.le_one_iff_eq_zero_or_eq_one.mp single
  · obtain rfl | rfl := Nat.le_one_iff_eq_zero_or_eq_one.mp last
    · omega
    · omega
  · obtain rfl | rfl := Nat.le_one_iff_eq_zero_or_eq_one.mp last
    · omega
    · omega

/-- Binary subtraction takes six too much for every digit that written subtraction borrows. -/
theorem corrects_difference {binary : Int} {middle out tens ones : Nat} (single : middle ≤ 1)
    (last : out ≤ 1) (smallTens : tens ≤ 9) (smallOnes : ones ≤ 9)
    (whole : binary = 16 * tens + ones + 6 * middle - 160 * out)
    : (binary < 0 ↔ out = 1)
      ∧ (((binary % 256).toNat - (6 * middle + 96 * out) : Int) % 256).toNat
        = 16 * tens + ones := by
  obtain rfl | rfl := Nat.le_one_iff_eq_zero_or_eq_one.mp single
  · obtain rfl | rfl := Nat.le_one_iff_eq_zero_or_eq_one.mp last
    · omega
    · omega
  · obtain rfl | rfl := Nat.le_one_iff_eq_zero_or_eq_one.mp last
    · omega
    · omega

/-- DAA turns the sum of two packed bytes into the digits of their decimal sum: both digits are
those of written addition, and a digit is corrected when written addition carries from it.
-/
theorem decimal_sum (lefts : IsPacked left) (rights : IsPacked right) {carry : Nat}
    (small : carry ≤ 1)
    : let total := value left + value right + carry
      let corrected := decimal (sum left right carry).1 (sum left right carry).2
      corrected.1 = pack total ∧ corrected.2.carry = decide (100 ≤ total) := by
  obtain ⟨leftTens, leftOnes, _, _, leftHolds, leftValue⟩ := lefts.exists_digits
  obtain ⟨rightTens, rightOnes, _, _, rightHolds, rightValue⟩ := rights.exists_digits
  have onesFew : leftOnes + rightOnes + carry ≤ 19 := by omega
  obtain ⟨middle, ones, single, smallOnes, lower⟩ := exists_carry onesFew
  have tensFew : leftTens + rightTens + middle ≤ 19 := by omega
  obtain ⟨out, tens, last, smallTens, upper⟩ := exists_carry tensFew
  have whole : left.toNat + right.toNat + carry + 6 * middle = 160 * out + 16 * tens + ones := by
    omega
  have lowest : left.toNat % 16 + right.toNat % 16 + carry = 10 * middle + ones := by omega
  have number : value left + value right + carry = 100 * out + 10 * tens + ones := by omega
  have outward : 100 ≤ value left + value right + carry ↔ out = 1 := by omega
  obtain ⟨findsOnes, findsTens, corrected⟩ :=
    corrects_sum single last smallTens smallOnes whole
  simp only [sum, decimal, UInt8.toNat_ofNat', Bool.false_eq_true, not_false_eq_true, true_and,
    if_false, ge_iff_le, gt_iff_lt, decide_eq_true_eq, lowest, outward,
    findsOnes, findsTens, correction_eq single, correction_eq last, and_true]
  refine eq_pack out smallTens smallOnes ?_ number
  rw [toNat_byte_ofInt, corrected]

/-- It turns their difference into the digits of the decimal difference in the same way. -/
theorem decimal_difference (lefts : IsPacked left) (rights : IsPacked right) {borrow : Nat}
    (small : borrow ≤ 1)
    : let taken := value right + borrow
      let corrected := decimal (difference left right borrow).1 (difference left right borrow).2
      corrected.1 = pack (100 + value left - taken)
      ∧ corrected.2.carry = decide (value left < taken) := by
  obtain ⟨leftTens, leftOnes, leftUpper, leftLower, leftHolds, leftValue⟩ := lefts.exists_digits
  obtain ⟨rightTens, rightOnes, _, _, rightHolds, rightValue⟩ := rights.exists_digits
  have onesFew : rightOnes + borrow ≤ 10 := by omega
  obtain ⟨middle, ones, single, smallOnes, lower⟩ := exists_borrow leftLower onesFew
  have tensFew : rightTens + middle ≤ 10 := by omega
  obtain ⟨out, tens, last, smallTens, upper⟩ := exists_borrow leftUpper tensFew
  have whole : (left.toNat : Int) - right.toNat - borrow
      = 16 * tens + ones + 6 * middle - 160 * out := by
    omega
  have lowest : (left.toNat % 16 : Int) - (right.toNat % 16 : Int) - borrow < 0 ↔ middle = 1 := by
    omega
  have number : 100 + value left - (value right + borrow)
      = 100 * (1 - out) + 10 * tens + ones := by
    omega
  have outward : value left < value right + borrow ↔ out = 1 := by omega
  obtain ⟨findsTens, corrected⟩ :=
    corrects_difference single last smallTens smallOnes whole
  simp only [difference, decimal, toNat_byte_ofInt, not_true_eq_false, false_and, or_false,
    if_true, decide_eq_true_eq, lowest, outward, findsTens,
    correction_eq single, correction_eq last, and_true]
  refine eq_pack (1 - out) smallTens smallOnes ?_ number
  rw [toNat_byte_ofInt, corrected]

variable (carry : Bool)

/-- An addition and DAA leave a packed byte that with the carry makes up the sum. -/
theorem value_add (lefts : IsPacked left) (rights : IsPacked right)
    : let sum := Arithmetic.add left right carry
      let corrected := Arithmetic.decimalAdjust sum.1 sum.2
      IsPacked corrected.1
      ∧ value corrected.1 + 100 * corrected.2.carry.toNat
        = value left + value right + carry.toNat := by
  have few := Bool.toNat_le carry
  have leftSmall := lefts.value_lt
  have rightSmall := rights.value_lt
  obtain ⟨result, carried⟩ := decimal_sum lefts rights few
  rw [sum_eq, decimal_eq] at result carried
  obtain ⟨digits, holds⟩ := pack_spec (value left + value right + carry.toNat)
  simp only [result, carried]
  refine ⟨digits, ?_⟩
  rw [holds]
  by_cases large : 100 ≤ value left + value right + carry.toNat
  · simp [large]
    omega
  · simp [large]
    omega

/-- A subtraction and DAA leave a packed byte that with what was taken makes up the rest. -/
theorem value_sub (lefts : IsPacked left) (rights : IsPacked right)
    : let difference := Arithmetic.sub left right carry
      let corrected := Arithmetic.decimalAdjust difference.1 difference.2
      IsPacked corrected.1
      ∧ value left + 100 * corrected.2.carry.toNat
        = value corrected.1 + value right + carry.toNat := by
  have few := Bool.toNat_le carry
  have leftSmall := lefts.value_lt
  have rightSmall := rights.value_lt
  obtain ⟨result, borrowed⟩ := decimal_difference lefts rights few
  rw [difference_eq, decimal_eq] at result borrowed
  obtain ⟨digits, holds⟩ := pack_spec (100 + value left - (value right + carry.toNat))
  simp only [result, borrowed]
  refine ⟨digits, ?_⟩
  rw [holds]
  by_cases short : value left < value right + carry.toNat
  · simp [short]
    omega
  · simp [short]
    omega

end Handheld.Decimal
