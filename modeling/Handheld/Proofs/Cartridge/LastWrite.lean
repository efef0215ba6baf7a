import Handheld.Cartridge.Controller

/-! The registers of bank controllers after any writes. Each register holds what the last write to
its own addresses put there; what was written before that, or to other addresses since, leaves no
trace. Refused writes change nothing.
-/

namespace Handheld

-----------------------------------------------------------------------------------------
-- Writes and the last of them
-----------------------------------------------------------------------------------------

/-- A byte written to an address of a cartridge. -/
structure Poke where
  address : UInt16
  value : UInt8
  deriving DecidableEq

namespace Poke

/-- The number written last to one of the addresses from `first` to `last`, or the given one
when none was written there.
-/
def lastTo (first last default : Nat) (pokes : List Poke) : Nat :=
  match (pokes.filter fun poke =>
      first ≤ poke.address.toNat && poke.address.toNat ≤ last).getLast? with
  | some poke => poke.value.toNat
  | none => default

/-- The value names a register of a clock. -/
def namesClock (poke : Poke) : Bool :=
  0x08 ≤ poke.value && poke.value ≤ 0x0C

variable {first last default : Nat} {pokes : List Poke} {poke : Poke}

/-- One more write to these addresses is the last. -/
theorem lastTo_concat_inside
    (inside : first ≤ poke.address.toNat ∧ poke.address.toNat ≤ last)
    : lastTo first last default (pokes ++ [poke]) = poke.value.toNat := by
  simp [lastTo, inside]

/-- One to another address makes no difference. -/
theorem lastTo_concat_outside
    (outside : ¬(first ≤ poke.address.toNat ∧ poke.address.toNat ≤ last))
    : lastTo first last default (pokes ++ [poke]) = lastTo first last default pokes := by
  simp [lastTo, outside]

theorem lastTo_lt (small : default < 256)
    : lastTo first last default pokes < 256 := by
  unfold lastTo
  split
  · exact UInt8.toNat_lt _
  · exact small

/-- The writes whose values name no register of a clock. -/
def withoutClock (pokes : List Poke) : List Poke :=
  pokes.filter (!·.namesClock)

theorem withoutClock_concat_clock (clock : poke.namesClock)
    : withoutClock (pokes ++ [poke]) = withoutClock pokes := by
  simp [withoutClock, clock]

theorem withoutClock_concat_other (other : ¬poke.namesClock)
    : withoutClock (pokes ++ [poke]) = withoutClock pokes ++ [poke] := by
  simp [withoutClock, other]

/-- Clock or not, one more write to another address makes no difference. -/
theorem lastTo_withoutClock_outside
    (outside : ¬(first ≤ poke.address.toNat ∧ poke.address.toNat ≤ last))
    : lastTo first last default (withoutClock (pokes ++ [poke]))
      = lastTo first last default (withoutClock pokes) := by
  by_cases clock : poke.namesClock
  · rw [withoutClock_concat_clock clock]
  · rw [withoutClock_concat_other clock, lastTo_concat_outside outside]

end Poke

-----------------------------------------------------------------------------------------
-- Registers
-----------------------------------------------------------------------------------------

namespace Controller

open Poke

/-- The registers hold what was last written to their addresses. -/
def Holds (pokes : List Poke) : Controller → Prop
  | .fixed => True
  | .mbc1 romBank upper advanced enabled =>
      romBank.toNat = max 1 (lastTo 0x2000 0x3FFF 1 pokes % 32)
      ∧ upper.toNat = lastTo 0x4000 0x5FFF 0 pokes % 4
      ∧ (advanced ↔ lastTo 0x6000 0x7FFF 0 pokes % 2 = 1)
      ∧ (enabled ↔ lastTo 0x0000 0x1FFF 0 pokes % 16 = 10)
  | .mbc3 romBank bank enabled =>
      romBank.toNat = max 1 (lastTo 0x2000 0x3FFF 1 pokes % 128)
      ∧ bank.toNat = lastTo 0x4000 0x5FFF 0 (withoutClock pokes) % 4
      ∧ (enabled ↔ lastTo 0x0000 0x1FFF 0 pokes % 16 = 10)
  | .mbc5 romBank bank enabled =>
      romBank.toNat = 256 * (lastTo 0x3000 0x3FFF 0 pokes % 2) + lastTo 0x2000 0x2FFF 1 pokes
      ∧ bank.toNat = lastTo 0x4000 0x5FFF 0 pokes % 16
      ∧ (enabled ↔ lastTo 0x0000 0x1FFF 0 pokes % 16 = 10)

/-- A mask of ones keeps the low bits of a byte. -/
theorem toNat_and_mask {value mask : UInt8} (bits : Nat) (ones : mask.toNat = 1 <<< bits - 1)
    : (value &&& mask).toNat = value.toNat % 1 <<< bits := by
  rw [UInt8.toNat_and, ones, Nat.one_shiftLeft, Nat.and_two_pow_sub_one_eq_mod]

theorem enables_iff (value : UInt8)
    : enables value ↔ value.toNat % 16 = 10 := by
  rw [enables, beq_iff_eq, ← UInt8.toNat_inj, toNat_and_mask 4 rfl]
  rfl

theorem odd_iff (value : UInt8)
    : (value &&& 0x01 == 1) = true ↔ value.toNat % 2 = 1 := by
  rw [beq_iff_eq, ← UInt8.toNat_inj, toNat_and_mask 1 rfl]
  rfl

theorem toNat_atLeastOne (bank : UInt8)
    : (atLeastOne bank).toNat = max 1 bank.toNat := by
  unfold atLeastOne
  split
  · rename_i zero
    rw [zero]
    rfl
  · rename_i nonzero
    have positive : bank.toNat ≠ 0 := fun h => nonzero (UInt8.toNat_inj.mp h)
    omega

theorem toNat_atLeastOne_mask {value mask : UInt8} (bits : Nat)
    (ones : mask.toNat = 1 <<< bits - 1)
    : (atLeastOne (value &&& mask)).toNat = max 1 (value.toNat % 1 <<< bits) := by
  rw [toNat_atLeastOne, toNat_and_mask bits ones]

/-- The ninth bit of a bank number beside a low byte. -/
theorem toNat_replaceLow {bank : UInt16} (value : UInt8) (nine : bank.toNat < 512)
    : (bank &&& (0x100 : UInt16) ||| value.toUInt16).toNat
      = 256 * (bank.toNat / 256) + value.toNat := by
  have ninth : ∀ number : Fin 512, number.val &&& 0x100 = 256 * (number.val / 256) := by
    decide +kernel
  rw [UInt16.toNat_or, UInt16.toNat_and, UInt8.toNat_toUInt16]
  change bank.toNat &&& 0x100 ||| value.toNat = _
  rw [ninth ⟨bank.toNat, nine⟩]
  exact (Nat.two_pow_add_eq_or_of_lt value.toNat_lt _).symm

theorem toNat_replaceHigh (bank : UInt16) (value : UInt8)
    : (bank &&& (0xFF : UInt16) ||| (value &&& 0x01).toUInt16 <<< 8).toNat
      = 256 * (value.toNat % 2) + bank.toNat % 256 := by
  have bit : (value &&& 0x01).toNat = value.toNat % 2 := toNat_and_mask 1 rfl
  have low : bank.toNat &&& 0xFF = bank.toNat % 256 := Nat.and_two_pow_sub_one_eq_mod _ 8
  have shifted : (value.toNat % 2) <<< 8 % 2 ^ 16 = 2 ^ 8 * (value.toNat % 2) := by
    rw [Nat.shiftLeft_eq]
    omega
  rw [UInt16.toNat_or, UInt16.toNat_and, UInt16.toNat_shiftLeft, UInt8.toNat_toUInt16, bit]
  change bank.toNat &&& 0xFF ||| (value.toNat % 2) <<< 8 % 2 ^ 16 = _
  rw [low, shifted, Nat.or_comm]
  exact (Nat.two_pow_add_eq_or_of_lt (Nat.mod_lt _ (by decide)) _).symm

theorem holds_initial (kind : ControllerKind)
    : (initial kind).Holds [] := by
  cases kind <;> simp [initial, Holds, lastTo, withoutClock]

variable {controller after : Controller} {pokes : List Poke} {poke : Poke}

/-- A write beyond the addresses of all registers leaves them alone. -/
theorem Holds.beyond (holds : controller.Holds pokes) (outside : 0x8000 ≤ poke.address.toNat)
    : controller.Holds (pokes ++ [poke]) := by
  cases controller
  case fixed => trivial
  all_goals
    simp (disch := omega) only [Holds, lastTo_concat_outside, lastTo_withoutClock_outside]
    exact holds

/-- A write changes the one register that its address belongs to, by cases of the address. -/
theorem Holds.write_mbc1 {romBank upper : UInt8} {advanced enabled : Bool}
    (holds : (mbc1 romBank upper advanced enabled).Holds pokes)
    (inside : poke.address.toNat < 0x8000)
    (written : (mbc1 romBank upper advanced enabled).write poke.address poke.value = .ok after)
    : after.Holds (pokes ++ [poke]) := by
  obtain ⟨bank, above, mode, on⟩ := holds
  simp only [Controller.write, UInt16.lt_iff_toNat_lt, UInt16.reduceToNat] at written
  split at written
  · cases written
    simp (disch := omega) only [Holds, lastTo_concat_inside, lastTo_concat_outside]
    exact ⟨bank, above, mode, enables_iff poke.value⟩
  split at written
  · cases written
    simp (disch := omega) only [Holds, lastTo_concat_inside, lastTo_concat_outside]
    exact ⟨toNat_atLeastOne_mask 5 rfl, above, mode, on⟩
  split at written
  · cases written
    simp (disch := omega) only [Holds, lastTo_concat_inside, lastTo_concat_outside]
    exact ⟨bank, toNat_and_mask 2 rfl, mode, on⟩
  · cases written
    simp (disch := omega) only [Holds, lastTo_concat_inside, lastTo_concat_outside]
    exact ⟨bank, above, odd_iff poke.value, on⟩

/-- The same with the registers of another family; a clock's register is never selected. -/
theorem Holds.write_mbc3 {romBank ramBank : UInt8} {enabled : Bool}
    (holds : (mbc3 romBank ramBank enabled).Holds pokes)
    (inside : poke.address.toNat < 0x8000)
    (written : (mbc3 romBank ramBank enabled).write poke.address poke.value = .ok after)
    : after.Holds (pokes ++ [poke]) := by
  obtain ⟨bank, above, on⟩ := holds
  simp only [Controller.write, UInt16.lt_iff_toNat_lt, UInt16.reduceToNat] at written
  split at written
  · cases written
    simp (disch := omega) only [Holds, lastTo_concat_inside, lastTo_concat_outside,
      lastTo_withoutClock_outside]
    exact ⟨bank, above, enables_iff poke.value⟩
  split at written
  · cases written
    simp (disch := omega) only [Holds, lastTo_concat_inside, lastTo_concat_outside,
      lastTo_withoutClock_outside]
    exact ⟨toNat_atLeastOne_mask 7 rfl, above, on⟩
  split at written
  · split at written
    · cases written
    · rename_i other
      cases written
      simp (disch := omega) only [Holds, withoutClock_concat_other other, lastTo_concat_inside,
        lastTo_concat_outside]
      exact ⟨bank, toNat_and_mask 2 rfl, on⟩
  · cases written
    simp (disch := omega) only [Holds, lastTo_concat_outside, lastTo_withoutClock_outside]
    exact ⟨bank, above, on⟩

/-- And of the last one, where two writes each change a part of the bank number. -/
theorem Holds.write_mbc5 {romBank : UInt16} {ramBank : UInt8} {enabled : Bool}
    (holds : (mbc5 romBank ramBank enabled).Holds pokes)
    (inside : poke.address.toNat < 0x8000)
    (written : (mbc5 romBank ramBank enabled).write poke.address poke.value = .ok after)
    : after.Holds (pokes ++ [poke]) := by
  obtain ⟨bank, above, on⟩ := holds
  have low : lastTo 0x2000 0x2FFF 1 pokes < 256 := lastTo_lt (by decide)
  simp only [Controller.write, UInt16.lt_iff_toNat_lt, UInt16.reduceToNat] at written
  split at written
  · cases written
    simp (disch := omega) only [Holds, lastTo_concat_inside, lastTo_concat_outside]
    exact ⟨bank, above, enables_iff poke.value⟩
  split at written
  · cases written
    simp (disch := omega) only [Holds, lastTo_concat_inside, lastTo_concat_outside]
    refine ⟨?_, above, on⟩
    rw [toNat_replaceLow _ (by omega)]
    omega
  split at written
  · cases written
    simp (disch := omega) only [Holds, lastTo_concat_inside, lastTo_concat_outside]
    refine ⟨?_, above, on⟩
    rw [toNat_replaceHigh]
    omega
  split at written
  · cases written
    simp (disch := omega) only [Holds, lastTo_concat_inside, lastTo_concat_outside]
    exact ⟨bank, toNat_and_mask 4 rfl, on⟩
  · cases written
    simp (disch := omega) only [Holds, lastTo_concat_outside]
    exact ⟨bank, above, on⟩

/-- Whatever the family, after a write the registers hold what was last written. -/
theorem Holds.write (holds : controller.Holds pokes) (inside : poke.address.toNat < 0x8000)
    (written : controller.write poke.address poke.value = .ok after)
    : after.Holds (pokes ++ [poke]) := by
  cases controller with
  | fixed =>
      cases written
      trivial
  | mbc1 => exact holds.write_mbc1 inside written
  | mbc3 => exact holds.write_mbc3 inside written
  | mbc5 => exact holds.write_mbc5 inside written

/-- A write is refused when it would select a register of a clock. -/
theorem write_error_iff {address : UInt16} {value : UInt8} {fault : Fault}
    : controller.write address value = .error fault
      ↔ controller.kind = .mbc3
        ∧ 0x4000 ≤ address.toNat ∧ address.toNat ≤ 0x5FFF
        ∧ Poke.namesClock ⟨address, value⟩
        ∧ fault = .clockSelect address value := by
  cases controller with
  | fixed => simp [Controller.write, kind]
  | mbc1 romBank upper advanced enabled =>
      simp only [Controller.write, kind, reduceCtorEq, false_and, iff_false]
      split
      · nofun
      split
      · nofun
      split
      · nofun
      · nofun
  | mbc3 romBank ramBank enabled =>
      simp only [Controller.write, kind, UInt16.lt_iff_toNat_lt, UInt16.reduceToNat, true_and]
      split
      · simp only [reduceCtorEq, false_iff]
        omega
      split
      · simp only [reduceCtorEq, false_iff]
        omega
      split
      · rw [Poke.namesClock]
        dsimp only
        split
        · rename_i clock
          constructor
          · rintro ⟨⟩
            exact ⟨by omega, by omega, clock, rfl⟩
          · rintro ⟨-, -, -, rfl⟩
            rfl
        · rename_i other
          simp [other]
      · simp only [reduceCtorEq, false_iff]
        omega
  | mbc5 romBank ramBank enabled =>
      simp only [Controller.write, kind, reduceCtorEq, false_and, iff_false]
      split
      · nofun
      split
      · nofun
      split
      · nofun
      split
      · nofun
      · nofun

/-- So it leaves no trace. -/
theorem Holds.refused (holds : controller.Holds pokes) {fault : Fault}
    (refused : controller.write poke.address poke.value = .error fault)
    : controller.Holds (pokes ++ [poke]) := by
  obtain ⟨kind, least, most, clock, -⟩ := write_error_iff.mp refused
  cases controller with
  | fixed | mbc1 | mbc5 => cases kind
  | mbc3 romBank ramBank enabled =>
      simp (disch := omega) only [Holds, lastTo_concat_outside, withoutClock_concat_clock clock]
      exact holds

end Controller

end Handheld
