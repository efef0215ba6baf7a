import Handheld.Proofs.Board.Policy
import Handheld.Proofs.Bus.Storage

/-! What reads and writes have to do with each other. Storage gives back what was written to it,
other writes leave it alone, and a read leaves no trace that anything would show.
-/

namespace Handheld.Bus

/-- After a read a board answers as it would have without: what was noted is never asked for. -/
theorem answers_read (bus : Bus) (address : UInt16) (cpu : Cpu) (calls : List Board.Call)
    : Board.answers calls ⟨cpu, (read address).endsIn bus⟩ = Board.answers calls ⟨cpu, bus⟩ := by
  have coupled : besideNotes.onBoards.related (⟨cpu, bus⟩ : Board)
      ⟨cpu, (read address).endsIn bus⟩ :=
    ⟨rfl, bus.noting_read address⟩
  exact (besideNotes_policyBlind.keepsCalls.answers calls coupled fun _ _ => not_false).1

/-- Where something is stored a write succeeds. Afterwards a read gives the value written if its
address names the same cell, and what it gave before if not. Where nothing is stored a write changes
nothing stored, unless it starts a transfer to object memory. A read changes the answer to nothing
that may be asked later.
-/
theorem read_over_write (bus : Bus)
    : (∀ address value,
        IsStorage address
        → ∃ after,
            write address value bus = .ok () after
            ∧ ∀ other,
              (read other).answer after
                = if IsStorage other ∧ home other = home address then .ok value
                  else (read other).answer bus)
      ∧ (∀ address value,
        ¬IsStorage address
        → address ≠ 0xFF46
        → ((write address value).endsIn bus).storage = bus.storage
          ∧ ∀ other,
            IsStorage other
            → (read other).answer ((write address value).endsIn bus) = (read other).answer bus)
      ∧ ∀ address cpu calls,
          Board.answers calls ⟨cpu, (read address).endsIn bus⟩
            = Board.answers calls ⟨cpu, bus⟩ := by
  refine ⟨?_, ?_, bus.answers_read⟩
  · intro address value stored
    obtain ⟨after, written, shown⟩ := bus.write_stored stored value
    refine ⟨after, written, fun other => ?_⟩
    rw [answer_read, answer_read, shown]
    simp only [Location.ofAddress_eq_iff stored]
  · intro address value unstored noTransfer
    have same := bus.storage_write unstored noTransfer value
    refine ⟨same, fun other stored => ?_⟩
    rw [answer_read, answer_read]
    exact peek_eq_of_storage same stored

/-- A byte written to the echo is read back from work RAM, a serial register is still refused, and
refused writes to it store nothing.
-/
theorem read_over_write_echo
    : (∃ after,
        write 0xE123 0x5A (.initial .strict) = .ok () after
        ∧ (read 0xC123).answer after = .ok 0x5A
        ∧ (read 0xFF01).answer after = .error (.unmodelledRegister 0xFF01))
      ∧ ((write 0xFF01 0x5A).endsIn (.initial .strict)).storage
        = (Bus.initial .strict).storage := by
  obtain ⟨stores, keeps, -⟩ := read_over_write (.initial .strict)
  obtain ⟨after, written, shown⟩ := stores 0xE123 0x5A (by decide)
  have cell := shown 0xC123
  have register := shown 0xFF01
  rw [if_pos (by decide)] at cell
  rw [if_neg (by decide)] at register
  exact ⟨⟨after, written, cell, register⟩, (keeps 0xFF01 0x5A (by decide) (by decide)).1⟩

end Handheld.Bus
