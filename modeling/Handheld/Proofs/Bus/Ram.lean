import Handheld.Proofs.Bus.Storage
import Handheld.Proofs.Cartridge

/-! Memory that gives back what was written to it. Besides the storage of the bus that is the RAM of
a cartridge while its controller has it on. Neighbouring bytes are kept apart in all of it.
-/

namespace Handheld

-----------------------------------------------------------------------------------------
-- The RAM of a cartridge
-----------------------------------------------------------------------------------------

namespace Cartridge

/-- The RAM is on and has more than one byte, so that neighbours in its window differ. -/
structure Remembers (cartridge : Cartridge) : Prop where
  enabled : cartridge.controller.ramEnabled
  several : 1 < cartridge.ram.size

/-- The place in the RAM for which an address of the window stands. -/
def ramCell (cartridge : Cartridge) (address : UInt16) : Nat :=
  (cartridge.controller.ramBank % cartridge.ramBanks * ramBankSize + (address.toNat - 0xA000))
    % cartridge.ram.size

namespace Remembers

variable {cartridge : Cartridge} (remembers : cartridge.Remembers) {address : UInt16}

include remembers

theorem positive
    : 0 < cartridge.ram.size :=
  Nat.lt_of_succ_lt remembers.several

theorem ramCell_lt (address : UInt16)
    : cartridge.ramCell address < cartridge.ram.size :=
  Nat.mod_lt _ remembers.positive

theorem ramIndex?_eq (address : UInt16)
    : cartridge.ramIndex? address = some (cartridge.ramCell address) :=
  if_neg (Nat.ne_of_gt remembers.positive)

/-- Neighbours stand for two places: their distance is no multiple of the size. -/
theorem ramCell_ne {next : UInt16} (above : 0xA000 ≤ address.toNat)
    (follows : next.toNat = address.toNat + 1)
    : cartridge.ramCell next ≠ cartridge.ramCell address := by
  intro same
  have distance := Nat.sub_mod_eq_zero_of_mod_eq same
  rw [Nat.add_sub_add_left, (by omega : next.toNat - 0xA000 - (address.toNat - 0xA000) = 1),
    Nat.mod_eq_of_lt remembers.several] at distance
  cases distance

/-- A read in the window gives the byte at its place. -/
theorem read_eq (above : 0xA000 ≤ address) (below : address < 0xC000)
    : cartridge.read address = byteOr cartridge.ram (cartridge.ramCell address) 0xFF := by
  have high : ¬address < 0x8000 := by grind
  have higher : ¬address < 0x4000 := by grind
  have window : (0xA000 ≤ address && address < 0xC000) = true := by simp [above, below]
  simp only [read, if_neg high, if_neg higher, if_pos window, if_pos remembers.enabled,
    remembers.ramIndex?_eq]

/-- A write in the window replaces that byte. -/
theorem write_eq (above : 0xA000 ≤ address) (below : address < 0xC000) (value : UInt8)
    : write address value cartridge
      = .ok () (cartridge.setRam (cartridge.ramCell address) value) := by
  have high : ¬address < 0x8000 := by grind
  have window : (0xA000 ≤ address && address < 0xC000) = true := by simp [above, below]
  have modified (change : Cartridge → Cartridge)
      : (modify change : Act Cartridge Unit) cartridge = .ok () (change cartridge) := rfl
  unfold write
  rw [if_neg high, if_pos window, modified]
  simp only [if_pos remembers.enabled, remembers.ramIndex?_eq]

/-- It is read back, and the next address of the window shows what it did. -/
theorem stores (above : 0xA000 ≤ address) (below : address < 0xC000) (value : UInt8)
    : ∃ after : Cartridge,
        write address value cartridge = .ok () after
        ∧ after.Remembers
        ∧ after.read address = value
        ∧ ∀ next,
          next.toNat = address.toNat + 1
          → next < 0xC000
          → after.read next = cartridge.read next := by
  let cell := cartridge.ramCell address
  have inside : cell < cartridge.ram.size := remembers.ramCell_lt address
  let after : Cartridge := { cartridge with ram := cartridge.ram.set cell value inside }
  have written : cartridge.setRam cell value = after := dif_pos inside
  have size : after.ram.size = cartridge.ram.size := size_set _ inside value
  have kept : after.Remembers := ⟨remembers.enabled, size.symm ▸ remembers.several⟩
  have cells (other : UInt16) : after.ramCell other = cartridge.ramCell other := by
    unfold ramCell ramBanks
    rw [size]
  refine ⟨after, ?_, kept, ?_, ?_⟩
  · rw [remembers.write_eq above below, written]
  · rw [kept.read_eq above below, cells, byteOr_set, if_pos rfl]
  · intro next follows inWindow
    have number : 0xA000 ≤ address.toNat := above
    have aboveNext : 0xA000 ≤ next := by
      rw [UInt16.le_iff_toNat_le, follows]
      exact Nat.le_succ_of_le number
    rw [kept.read_eq aboveNext inWindow, remembers.read_eq aboveNext inWindow, cells, byteOr_set,
      if_neg (remembers.ramCell_ne number follows)]

end Remembers

end Cartridge

-----------------------------------------------------------------------------------------
-- All RAM behind the bus
-----------------------------------------------------------------------------------------

/-- The RAM window of the cartridge. -/
theorem Location.ofAddress_eq_cartridgeRam {address : UInt16} (above : 0xA000 ≤ address)
    (below : address < 0xC000)
    : ofAddress address = .cartridgeRam := by
  have low : 0xA000 ≤ address.toNat := above
  have high : address.toNat < 0xC000 := below
  grind [ofAddress]

/-- Neighbours are no two addresses of one cell. -/
theorem Location.ofAddress_ne {address next : UInt16} (stored : IsStorage address)
    (follows : next.toNat = address.toNat + 1)
    : ofAddress next ≠ ofAddress address := by
  intro same
  obtain ⟨-, sameHome⟩ := (ofAddress_eq_iff stored next).mp same
  obtain ⟨echo, direct⟩ := toNat_home address
  obtain ⟨echoNext, directNext⟩ := toNat_home next
  rw [sameHome] at echoNext directNext
  have number (outside : address.toNat < 0xE000 ∨ 0xFE00 ≤ address.toNat)
      : (home address).toNat = address.toNat :=
    congrArg UInt16.toNat (direct outside)
  have numberNext (outside : next.toNat < 0xE000 ∨ 0xFE00 ≤ next.toNat)
      : (home address).toNat = next.toNat :=
    congrArg UInt16.toNat (directNext outside)
  omega

namespace Bus

/-- Something is stored at the address, or the RAM of a cartridge answers there. -/
def IsRam (bus : Bus) (address : UInt16) : Prop :=
  IsStorage address
  ∨ (0xA000 ≤ address ∧ address < 0xC000)
    ∧ ∃ cartridge, bus.cartridge = some cartridge ∧ cartridge.Remembers

variable {bus : Bus} {address : UInt16}

/-- The ROM windows lie below all RAM. -/
theorem IsRam.above (ram : bus.IsRam address)
    : 0x8000 ≤ address.toNat := by
  rcases ram with stored | ⟨⟨above, -⟩, -⟩
  · rw [Location.isStorage_iff] at stored
    omega
  · have number : 0xA000 ≤ address.toNat := above
    omega

/-- So the address before a RAM address is the last one before it, without wrapping. -/
theorem IsRam.toNat_next (ram : bus.IsRam (address + 1))
    : (address + 1).toNat = address.toNat + 1 := by
  have above := ram.above
  have small := address.toNat_lt
  have number : (address + 1).toNat = (address.toNat + 1) % 65536 := UInt16.toNat_add address 1
  omega

/-- The window shows the cartridge. -/
theorem peek_window (bus : Bus) (above : 0xA000 ≤ address) (below : address < 0xC000)
    : bus.peek address = .ok (bus.peekCartridge address) := by
  unfold peek
  rw [Location.ofAddress_eq_cartridgeRam above below]

/-- A write to RAM succeeds and is read back. All RAM stays RAM, and the next address shows what it
did.
-/
theorem IsRam.write (ram : bus.IsRam address) (value : UInt8)
    : ∃ after,
        write address value bus = .ok () after
        ∧ after.peek address = .ok value
        ∧ (∀ other, bus.IsRam other → after.IsRam other)
        ∧ (bus.IsRam (address + 1) → after.peek (address + 1) = bus.peek (address + 1)) := by
  rcases ram with stored | ⟨⟨above, below⟩, cartridge, inserted, remembers⟩
  · obtain ⟨after, written, shown⟩ := bus.write_stored stored value
    have same : after.cartridge = bus.cartridge := by
      rw [write_stored_eq stored written]
      rfl
    refine ⟨after, written, ?_, ?_, ?_⟩
    · rw [shown, if_pos rfl]
    · intro other ram
      rw [IsRam, same]
      exact ram
    · intro ramNext
      rw [shown, if_neg (Location.ofAddress_ne stored ramNext.toNat_next)]
  · obtain ⟨after, stored, kept, shown, others⟩ := remembers.stores above below value
    have written : Bus.write address value bus = .ok () (bus.insert after) := by
      unfold Bus.write
      rw [Location.ofAddress_eq_cartridgeRam above below]
      simp only [writeLocation, writeCartridge, inserted, stored]
      rfl
    have shows (other : UInt16) : (bus.insert after).peekCartridge other = after.read other := rfl
    refine ⟨bus.insert after, written, ?_, ?_, ?_⟩
    · rw [peek_window _ above below, shows, shown]
    · intro other ram
      rcases ram with stored | ⟨window, -⟩
      · exact .inl stored
      · exact .inr ⟨window, after, rfl, kept⟩
    · intro ramNext
      have follows := ramNext.toNat_next
      have storage : (bus.insert after).storage = bus.storage := rfl
      rcases ramNext with elsewhere | ⟨⟨aboveNext, belowNext⟩, -⟩
      · exact peek_eq_of_storage storage elsewhere
      · rw [peek_window _ aboveNext belowNext, peek_window _ aboveNext belowNext, shows,
          others _ follows belowNext]
        simp only [peekCartridge, inserted]

/-- Notes leave RAM where it is. -/
theorem Noting.isRam {after : Bus} (noting : bus.Noting after) (ram : bus.IsRam address)
    : after.IsRam address := by
  obtain ⟨noted, same⟩ := noting
  subst same
  exact ram

/-- RAM does not change as the timer runs. -/
theorem IsRam.peek_runTimer (ram : bus.IsRam address) (cycles : Nat)
    : (bus.runTimer cycles).peek address = bus.peek address := by
  rcases ram with stored | ⟨⟨above, below⟩, -⟩
  · have storage : (bus.runTimer cycles).storage = bus.storage := rfl
    exact peek_eq_of_storage storage stored
  · rw [peek_window _ above below, peek_window _ above below]
    rfl

end Bus

end Handheld
