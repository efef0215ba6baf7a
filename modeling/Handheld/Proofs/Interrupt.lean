import Handheld.Interrupt
import Mathlib.Data.Nat.Bitwise

/-! The interrupt sources as bits of a byte. Adding sources to a byte, or taking some away,
leaves the bits of all others as they were, and the first source among some requests is the
one with the lowest bit.
-/

namespace Handheld

/-- A byte meets the mask of a single bit when it has that bit. -/
theorem meets_eq_testBit {mask : UInt8} {bit : Nat} (single : mask.toNat = 2 ^ bit)
    (byte : UInt8)
    : (byte &&& mask != 0) = byte.toNat.testBit bit := by
  have masked : (byte &&& mask).toNat = (byte.toNat.testBit bit).toNat * 2 ^ bit := by
    rw [UInt8.toNat_and, single, Nat.and_two_pow]
  rw [Bool.eq_iff_iff, bne_iff_ne, ne_eq, ← UInt8.toNat_inj, masked]
  cases byte.toNat.testBit bit <;> simp

namespace Interrupt

/-- The number of a source's bit, from zero to four. -/
def bit : Interrupt → Nat
  | .vblank => 0
  | .lcdStatus => 1
  | .timer => 2
  | .serial => 3
  | .joypad => 4

/-- A mask has the bit of its source and no other. -/
theorem toNat_mask (source : Interrupt)
    : source.mask.toNat = 2 ^ source.bit := by
  cases source <;> rfl

/-- Handlers lie eight bytes apart, in the order of the bits. -/
theorem vector_eq (source : Interrupt)
    : source.vector = 0x40 + 8 * UInt16.ofNat source.bit := by
  cases source <;> rfl

/-- A byte contains a source when the source's bit is set. -/
theorem isIn_eq_testBit (source : Interrupt) (requests : UInt8)
    : source.isIn requests = requests.toNat.testBit source.bit :=
  meets_eq_testBit source.toNat_mask requests

/-- Or-ing bytes puts their sources together. -/
theorem isIn_or (source : Interrupt) (left right : UInt8)
    : source.isIn (left ||| right) = (source.isIn left || source.isIn right) := by
  simp only [isIn_eq_testBit, UInt8.toNat_or, Nat.testBit_or]

/-- And-ing bytes keeps the sources that both contain. -/
theorem isIn_and (source : Interrupt) (left right : UInt8)
    : source.isIn (left &&& right) = (source.isIn left && source.isIn right) := by
  simp only [isIn_eq_testBit, UInt8.toNat_and, Nat.testBit_and]

/-- All sources lie in the low five bits. -/
theorem isIn_low (source : Interrupt)
    : source.isIn 0x1F := by
  cases source <;> rfl

/-- A mask's complement contains every other source. -/
theorem isIn_complement_mask {source other : Interrupt} (different : source ≠ other)
    : source.isIn (~~~other.mask) := by
  cases source <;> cases other <;> first
    | rfl
    | exact absurd rfl different

/-- Raising a source keeps all that were there. -/
theorem isIn_raiseIf {source : Interrupt} {requests : UInt8} (raised : source.isIn requests)
    (other : Interrupt) (condition : Bool)
    : source.isIn (other.raiseIf condition requests) := by
  unfold raiseIf
  split
  · rw [isIn_or, raised, Bool.true_or]
  · exact raised

/-- What else is requested stays beside a source that is raised. -/
theorem raiseIf_or (source : Interrupt) (condition : Bool) (requests more : UInt8)
    : source.raiseIf condition (requests ||| more)
      = source.raiseIf condition requests ||| more := by
  unfold raiseIf
  split
  · rw [UInt8.or_assoc, UInt8.or_comm more, UInt8.or_assoc]
  · rfl

/-- So raising a source adds to the requests what it makes of none. -/
theorem raiseIf_eq_or (source : Interrupt) (condition : Bool) (requests : UInt8)
    : source.raiseIf condition requests = requests ||| source.raiseIf condition 0 := by
  rw [UInt8.or_comm, ← raiseIf_or, UInt8.zero_or]

/-- Raising a source for one of two reasons is raising it for each of them. -/
theorem raiseIf_either (source : Interrupt) (first second : Bool) (requests : UInt8)
    : source.raiseIf (first || second) requests
      = source.raiseIf second (source.raiseIf first requests) := by
  cases first <;> cases second <;> simp [raiseIf, UInt8.or_assoc]

/-- Raising a source brings no other. -/
theorem isIn_raiseIf_of_ne {source other : Interrupt} (different : source ≠ other)
    (condition : Bool) (requests : UInt8)
    : source.isIn (other.raiseIf condition requests) = source.isIn requests := by
  have absent : source.isIn other.mask = false := by
    cases source <;> cases other <;> first
      | rfl
      | exact absurd rfl different
  unfold raiseIf
  split
  · rw [isIn_or, absent, Bool.or_false]
  · rfl

/-- Raising a source sets its bit and no other. -/
theorem testBit_raiseIf (source : Interrupt) (condition : Bool) (requests : UInt8) (index : Nat)
    : (source.raiseIf condition requests).toNat.testBit index
      ↔ requests.toNat.testBit index ∨ index = source.bit ∧ condition := by
  cases condition with
  | false => simp [raiseIf]
  | true =>
      rw [raiseIf, if_pos rfl, UInt8.toNat_or, toNat_mask, Nat.testBit_or, Nat.testBit_two_pow,
        Bool.or_eq_true, decide_eq_true_eq]
      exact or_congr_right ⟨fun same => ⟨same.symm, rfl⟩, fun set => set.1.symm⟩

/-- Taking a source back keeps all others. -/
theorem isIn_and_complement_mask {source other : Interrupt} {requests : UInt8}
    (raised : source.isIn requests) (different : source ≠ other)
    : source.isIn (requests &&& ~~~other.mask) := by
  rw [isIn_and, raised, isIn_complement_mask different, Bool.and_true]

-----------------------------------------------------------------------------------------
-- Pending requests
-----------------------------------------------------------------------------------------

@[simp]
theorem isIn_pending (source : Interrupt) (requests enabled : UInt8)
    : source.isIn (pending requests enabled) = (source.isIn requests && source.isIn enabled) := by
  unfold pending
  rw [isIn_and, isIn_and, isIn_low, Bool.and_true]

theorem mem_all (source : Interrupt)
    : source ∈ all := by
  cases source <;> decide

/-- Every one of the low five bits belongs to a source. -/
theorem exists_bit {index : Nat} (low : index < 5)
    : ∃ source : Interrupt, source.bit = index := by
  have numbered : ∀ index < 5, ∃ source ∈ all, source.bit = index := by decide
  obtain ⟨source, -, same⟩ := numbered index low
  exact ⟨source, same⟩

/-- Nothing is pending when no source is: what is pending has no bits beside theirs. -/
theorem pending_eq_zero_iff {requests enabled : UInt8}
    : pending requests enabled = 0
      ↔ ∀ source : Interrupt, source.isIn (pending requests enabled) = false := by
  constructor
  · intro none source
    rw [none]
    cases source <;> rfl
  · intro none
    rw [← UInt8.toNat_inj]
    refine Nat.eq_of_testBit_eq fun index => ?_
    rw [UInt8.toNat_zero, Nat.zero_testBit]
    by_cases low : index < 5
    · obtain ⟨source, rfl⟩ := exists_bit low
      rw [← isIn_eq_testBit]
      exact none source
    · have small : (pending requests enabled).toNat < 2 ^ 5 := by
        unfold pending
        rw [UInt8.toNat_and]
        exact Nat.and_lt_two_pow _ (by decide)
      exact Nat.testBit_lt_two_pow
        (small.trans_le (Nat.pow_le_pow_right (by decide) (Nat.le_of_not_lt low)))

/-- With fewer requests nothing more is pending. -/
theorem pending_of_or {requests more enabled : UInt8}
    (none : pending (requests ||| more) enabled = 0)
    : pending requests enabled = 0 := by
  rw [pending_eq_zero_iff] at none ⊢
  intro source
  have absent := none source
  simp only [isIn_pending, isIn_or] at absent ⊢
  revert absent
  cases source.isIn requests <;> cases source.isIn enabled <;> simp

/-- With one source enabled something is pending exactly when that source is requested. -/
theorem pending_mask_eq_zero_iff (source : Interrupt) (requests : UInt8)
    : pending requests source.mask = 0 ↔ source.isIn requests = false := by
  have low : source.mask &&& 0x1F = source.mask := by cases source <;> rfl
  rw [pending, UInt8.and_assoc, low]
  exact bne_eq_false_iff_eq.symm

/-- A source comes first as soon as something is pending. -/
theorem first?_pending_eq_none_iff {requests enabled : UInt8}
    : first? (pending requests enabled) = none ↔ pending requests enabled = 0 := by
  rw [pending_eq_zero_iff, first?, List.find?_eq_none]
  simp only [mem_all, true_implies, Bool.not_eq_true]

-----------------------------------------------------------------------------------------
-- The source to serve first
-----------------------------------------------------------------------------------------

/-- A source whose bit is the lowest of those set in a byte. -/
def IsLowest (source : Interrupt) (requests : UInt8) : Prop :=
  source.isIn requests ∧ ∀ other : Interrupt, other.isIn requests → source.bit ≤ other.bit

/-- The first source among some requests is the lowest, by the order of all sources. -/
theorem isLowest_of_first? {requests : UInt8} {source : Interrupt}
    (first : first? requests = some source)
    : source.IsLowest requests := by
  have found : source.isIn requests := by
    simpa using List.find?_some first
  refine ⟨found, ?_⟩
  intro other raised
  have ordered : all.Pairwise fun earlier later => earlier.bit < later.bit := by decide
  have member := other.mem_all
  obtain ⟨-, before, behind, split, none⟩ := List.find?_eq_some_iff_append.mp first
  rw [split] at ordered member
  rcases List.mem_append.mp member with earlier | later
  · have absent := none other earlier
    simp [raised] at absent
  · rcases List.mem_cons.mp later with rfl | later
    · exact Nat.le_refl _
    · exact Nat.le_of_lt
        ((List.pairwise_cons.mp (List.pairwise_append.mp ordered).2.1).1 other later)

end Interrupt

end Handheld
