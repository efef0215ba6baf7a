import Handheld.Proofs.Bus.Ram
import Handheld.Proofs.Cartridge.Banking

/-! The external RAM of a cartridge after any writes. While it is on, the window shows at each
place of the selected bank the byte that was stored there last; everything else that is written
leaves the stored bytes alone.
-/

namespace Handheld

/-- Each of some writes together with all writes before it. -/
def Poke.moments (earlier : List Poke) : List Poke → List (List Poke × Poke)
  | [] => []
  | poke :: rest => (earlier, poke) :: moments (earlier ++ [poke]) rest

/-- One more write comes after all the others. -/
theorem Poke.moments_concat (earlier pokes : List Poke) (poke : Poke)
    : moments earlier (pokes ++ [poke]) = moments earlier pokes ++ [(earlier ++ pokes, poke)] := by
  induction pokes generalizing earlier with
  | nil => simp [moments]
  | cons first rest ih => simp [moments, ih]

-----------------------------------------------------------------------------------------
-- RAM by the writes made
-----------------------------------------------------------------------------------------

/-- A RAM of some bytes behind a bank controller of some family. -/
structure ExternalRam where
  kind : ControllerKind
  size : Nat

namespace ExternalRam

variable (ram : ExternalRam)

/-- Banks, counting a partial one as whole. -/
def banks : Nat :=
  (ram.size + 0x1FFF) / 0x2000

/-- The place that an offset in a bank stands for. Banks beyond the last repeat the first ones,
and a RAM that is smaller than a bank repeats itself.
-/
def place (bank offset : Nat) : Nat :=
  (bank % ram.banks * 0x2000 + offset) % ram.size

/-- Whether some writes have left the RAM on. -/
def isOn (pokes : List Poke) : Bool :=
  ram.kind == .fixed || Poke.lastTo 0x0000 0x1FFF 0 pokes % 16 == 10

/-- The bank that some writes have selected. -/
def bank (pokes : List Poke) : Nat :=
  (Controller.selectionBy pokes ram.kind).ram

/-- Whether a write after some earlier ones is stored. -/
def Stores (earlier : List Poke) (poke : Poke) : Prop :=
  ram.isOn earlier ∧ 0xA000 ≤ poke.address ∧ poke.address < 0xC000

instance (earlier : List Poke) (poke : Poke) : Decidable (ram.Stores earlier poke) :=
  inferInstanceAs (Decidable (_ ∧ _))

/-- Where it would be stored. -/
def target (earlier : List Poke) (poke : Poke) : Nat :=
  ram.place (ram.bank earlier) (poke.address.toNat - 0xA000)

/-- The byte that was stored last at a place, or zero when none was. -/
def lastStored (pokes : List Poke) (place : Nat) : UInt8 :=
  match ((Poke.moments [] pokes).filter fun moment =>
      ram.Stores moment.1 moment.2 ∧ ram.target moment.1 moment.2 = place).getLast? with
  | some moment => moment.2.value
  | none => 0

variable {ram} {pokes : List Poke} {poke : Poke}

/-- A write that is stored is the last one at its place and makes no difference elsewhere. -/
theorem lastStored_concat (stores : ram.Stores pokes poke) (place : Nat)
    : ram.lastStored (pokes ++ [poke]) place
      = if place = ram.target pokes poke then poke.value else ram.lastStored pokes place := by
  by_cases hit : ram.target pokes poke = place
  · simp [lastStored, Poke.moments_concat, stores, hit]
  · simp [lastStored, Poke.moments_concat, hit, Ne.symm hit]

/-- One that is not stored makes no difference anywhere. -/
theorem lastStored_concat_unstored (unstored : ¬ram.Stores pokes poke) (place : Nat)
    : ram.lastStored (pokes ++ [poke]) place = ram.lastStored pokes place := by
  simp [lastStored, Poke.moments_concat, unstored]

/-- Every place is in the RAM. -/
theorem place_lt (filled : 0 < ram.size) (bank offset : Nat)
    : ram.place bank offset < ram.size :=
  Nat.mod_lt _ filled

/-- In a RAM of whole banks no two offsets of banks stand for one place. -/
theorem place_eq_iff {count : Nat} (whole : ram.size = 0x2000 * count) (filled : 0 < count)
    {bank other offset next : Nat} (inside : offset < 0x2000) (nextInside : next < 0x2000)
    : ram.place bank offset = ram.place other next
      ↔ bank % ram.banks = other % ram.banks ∧ offset = next := by
  have counted : ram.banks = count := by
    unfold banks
    omega
  have first := Nat.mod_lt bank filled
  have second := Nat.mod_lt other filled
  unfold place
  rw [counted, whole]
  generalize bank % count = bank at first ⊢
  generalize other % count = other at second ⊢
  rw [Nat.mod_eq_of_lt (by omega), Nat.mod_eq_of_lt (by omega)]
  omega

/-- A RAM of 2 KiB repeats itself. -/
theorem place_of_small (small : ram.size = 0x800) (bank offset : Nat)
    : ram.place bank offset = offset % 0x800 := by
  have single : ram.banks = 1 := by
    rw [banks, small]
  rw [place, single, small, Nat.mod_one, Nat.zero_mul, Nat.zero_add]

end ExternalRam

/-- The size codes stand for no RAM, for 2 KiB or for whole banks. -/
theorem Header.ramSizeOf_cases (code : UInt8)
    : ramSizeOf code = 0
      ∨ ramSizeOf code = 0x800
      ∨ ∃ count, 0 < count ∧ ramSizeOf code = 0x2000 * count := by
  unfold ramSizeOf
  split
  · exact .inr (.inl rfl)
  · exact .inr (.inr ⟨1, by decide, rfl⟩)
  · exact .inr (.inr ⟨4, by decide, rfl⟩)
  · exact .inr (.inr ⟨16, by decide, rfl⟩)
  · exact .inr (.inr ⟨8, by decide, rfl⟩)
  · exact .inl rfl

namespace Cartridge

open ExternalRam (place_lt lastStored_concat lastStored_concat_unstored)

-----------------------------------------------------------------------------------------
-- What a cartridge stores
-----------------------------------------------------------------------------------------

def externalRam (cartridge : Cartridge) : ExternalRam :=
  { kind := cartridge.controller.kind, size := cartridge.ram.size }

/-- Outside of the window, and in it while the RAM is off, a write changes nothing stored. -/
theorem ram_poked_of_unstored {cartridge : Cartridge} {poke : Poke}
    (unstored
      : ¬(cartridge.controller.ramEnabled ∧ 0xA000 ≤ poke.address ∧ poke.address < 0xC000))
    : (cartridge.poked poke).ram = cartridge.ram := by
  unfold poked Act.endsIn
  by_cases low : poke.address < 0x8000
  · rw [write_of_low low]
    cases cartridge.controller.write poke.address poke.value <;> rfl
  · have nothing : write poke.address poke.value cartridge = .ok () cartridge := by
      unfold write
      rw [if_neg low]
      split
      · next window =>
          simp only [Bool.and_eq_true, decide_eq_true_eq] at window
          have off : ¬cartridge.controller.ramEnabled := fun on => unstored ⟨on, window⟩
          have modified (change : Cartridge → Cartridge)
              : (modify change : Act Cartridge Unit) cartridge = .ok () (change cartridge) := rfl
          rw [modified, if_neg off]
      · rfl
    rw [nothing]

/-- While the RAM is off the window shows ones. -/
theorem read_of_off {cartridge : Cartridge} (off : ¬cartridge.controller.ramEnabled)
    {address : UInt16} (above : 0xA000 ≤ address)
    : cartridge.read address = 0xFF := by
  have high : ¬address < 0x8000 := by grind
  have higher : ¬address < 0x4000 := by grind
  rw [read, if_neg higher, if_neg high, if_neg off, ite_self]

/-- The cartridge has a RAM of some kind and size, and every place in it holds the byte stored there
last by some writes, which also made the registers of the controller what they are.
-/
structure Retains (ram : ExternalRam) (pokes : List Poke) (cartridge : Cartridge) : Prop where
  made : cartridge.externalRam = ram
  several : 1 < ram.size
  registers : cartridge.controller.Holds pokes
  bytes : ∀ place, place < ram.size → byteOr cartridge.ram place 0xFF = ram.lastStored pokes place

namespace Retains

variable {ram : ExternalRam} {pokes : List Poke} {cartridge : Cartridge} {poke : Poke}

theorem ramEnabled_iff (retains : cartridge.Retains ram pokes)
    : cartridge.controller.ramEnabled ↔ ram.isOn pokes := by
  rw [retains.registers.ramEnabled_iff, ← retains.made]
  simp [externalRam, ExternalRam.isOn]

/-- While it is on, it can be relied on to give back what is written. -/
theorem remembers (retains : cartridge.Retains ram pokes) (on : ram.isOn pokes)
    : cartridge.Remembers where
  enabled := retains.ramEnabled_iff.mpr on
  several := by
    have size : cartridge.ram.size = ram.size := congrArg ExternalRam.size retains.made
    rw [size]
    exact retains.several

/-- An address of the window stands for a place in the selected bank. -/
theorem ramCell_eq (retains : cartridge.Retains ram pokes) (address : UInt16)
    : cartridge.ramCell address = ram.place (ram.bank pokes) (address.toNat - 0xA000) := by
  have selected : cartridge.controller.ramBank = ram.bank pokes := by
    rw [← retains.made]
    exact congrArg BankSelection.ram retains.registers.selection_eq
  rw [← selected, ← retains.made]
  rfl

/-- What the window shows. -/
theorem read_eq (retains : cartridge.Retains ram pokes) {address : UInt16}
    (above : 0xA000 ≤ address) (below : address < 0xC000)
    : cartridge.read address
      = if ram.isOn pokes then
          ram.lastStored pokes (ram.place (ram.bank pokes) (address.toNat - 0xA000))
        else 0xFF := by
  split
  · next on =>
      rw [(retains.remembers on).read_eq above below, retains.ramCell_eq]
      exact retains.bytes _ (place_lt (Nat.lt_of_succ_lt retains.several) _ _)
  · next off => exact read_of_off (fun on => off (retains.ramEnabled_iff.mp on)) above

/-- A write that is not stored leaves the RAM alone. -/
theorem ram_poked (retains : cartridge.Retains ram pokes) (unstored : ¬ram.Stores pokes poke)
    : (cartridge.poked poke).ram = cartridge.ram := by
  apply ram_poked_of_unstored
  rw [retains.ramEnabled_iff]
  exact unstored

/-- One more write is either stored at its place or leaves the RAM alone. -/
theorem poked (retains : cartridge.Retains ram pokes) (poke : Poke)
    : (cartridge.poked poke).Retains ram (pokes ++ [poke]) where
  made := by
    have shape := cartridge.shape_poked poke
    have kind : (cartridge.poked poke).controller.kind = cartridge.controller.kind :=
      congrArg Shape.kind shape
    have size : (cartridge.poked poke).ram.size = cartridge.ram.size :=
      congrArg Shape.ramSize shape
    rw [← retains.made, externalRam, kind, size]
    rfl
  several := retains.several
  registers := holds_poked retains.registers poke
  bytes := by
    intro place inside
    by_cases stores : ram.Stores pokes poke
    · obtain ⟨on, above, below⟩ := stores
      have remembers := retains.remembers on
      have there := remembers.ramCell_lt poke.address
      have stored : cartridge.poked poke
          = { cartridge with
              ram := cartridge.ram.set (cartridge.ramCell poke.address) poke.value there } := by
        unfold Cartridge.poked Act.endsIn
        rw [remembers.write_eq above below]
        exact dif_pos there
      rw [stored, byteOr_set, retains.bytes place inside, retains.ramCell_eq,
        lastStored_concat ⟨on, above, below⟩]
      rfl
    · rw [retains.ram_poked stores, retains.bytes place inside,
        lastStored_concat_unstored stores]

/-- So it goes on through any further writes, by induction on these. -/
theorem after (retains : cartridge.Retains ram pokes) (more : List Poke)
    : (cartridge.after more).Retains ram (pokes ++ more) := by
  induction more generalizing cartridge pokes with
  | nil =>
      rw [List.append_nil]
      exact retains
  | cons poke rest ih =>
      have next := ih (retains.poked poke)
      rw [List.append_assoc] at next
      exact next

end Retains

-----------------------------------------------------------------------------------------
-- Cartridges with RAM
-----------------------------------------------------------------------------------------

/-- The RAM of an accepted cartridge has 2 KiB or whole banks, all cleared. -/
theorem ram_of_ofImage {image : ByteArray} {cartridge : Cartridge}
    (made : ofImage image = .ok cartridge) (filled : cartridge.ram.size ≠ 0)
    : (cartridge.ram.size = 0x800 ∨ ∃ count, 0 < count ∧ cartridge.ram.size = 0x2000 * count)
      ∧ ∀ place, place < cartridge.ram.size → byteOr cartridge.ram place 0xFF = 0 := by
  obtain ⟨header, accepted, ram⟩ := header_of_ofImage made
  obtain ⟨-, -, size⟩ := sizes_of_header accepted
  simp only [ram, size_filledBytes] at filled ⊢
  refine ⟨?_, fun place inside => byteOr_filledBytes inside _⟩
  rcases Header.ramSizeOf_cases (byteOr image 0x149 0) with none | sizes
  · exact absurd (size.trans none) filled
  · rw [size]
    exact sizes

/-- External RAM keeps what was stored last. After any writes to a cartridge made from an image, the
window shows the byte stored last at the place for which its address stands in the selected bank, or
zero when none was stored there; while the RAM is off it shows ones. RAM of whole banks has a place
for every offset in each of its banks, RAM of 2 KiB repeats itself. A write that does not go into
the window while the RAM is on leaves the RAM as it is.
-/
theorem ram_keeps_last_stored {image : ByteArray} {cartridge : Cartridge}
    (made : ofImage image = .ok cartridge) (filled : cartridge.ram.size ≠ 0)
    (pokes : List Poke)
    : let ram : ExternalRam := { kind := cartridge.controller.kind, size := cartridge.ram.size }
      let after := cartridge.after pokes
      (after.controller.ramEnabled ↔ ram.isOn pokes)
      ∧ (∀ address, 0xA000 ≤ address → address < 0xC000
        → after.read address
          = if ram.isOn pokes then
              ram.lastStored pokes (ram.place (ram.bank pokes) (address.toNat - 0xA000))
            else 0xFF)
      ∧ (0x2000 ≤ ram.size
        → ∀ bank other offset next, offset < 0x2000 → next < 0x2000
          → (ram.place bank offset = ram.place other next
            ↔ bank % ram.banks = other % ram.banks ∧ offset = next))
      ∧ (ram.size = 0x800 → ∀ bank offset, ram.place bank offset = offset % 0x800)
      ∧ ∀ poke,
          ¬(ram.isOn pokes ∧ 0xA000 ≤ poke.address ∧ poke.address < 0xC000)
          → (cartridge.after (pokes ++ [poke])).ram = after.ram := by
  intro ram after
  obtain ⟨sizes, cleared⟩ := ram_of_ofImage made filled
  have started : cartridge.Retains ram [] :=
    { made := rfl
      several := by
        change 1 < cartridge.ram.size
        omega
      registers := by
        rw [controller_of_ofImage made]
        exact Controller.holds_initial _
      bytes := cleared }
  have retains : after.Retains ram pokes := started.after pokes
  refine ⟨retains.ramEnabled_iff, fun address => retains.read_eq, ?_,
    ExternalRam.place_of_small, ?_⟩
  · intro large bank other offset next inside nextInside
    rcases sizes with small | ⟨count, positive, whole⟩
    · change 0x2000 ≤ cartridge.ram.size at large
      omega
    · exact ExternalRam.place_eq_iff whole positive inside nextInside
  · intro poke unstored
    have last : cartridge.after (pokes ++ [poke]) = after.poked poke := List.foldl_append
    rw [last]
    exact retains.ram_poked unstored

/-- An image with four banks of RAM behind an MBC1. -/
def ramImage : ByteArray :=
  filledBytes 0x40000 3

theorem ofImage_ramImage
    : ∃ cartridge,
        ofImage ramImage = .ok cartridge
        ∧ cartridge.controller.kind = .mbc1
        ∧ cartridge.ram.size = 0x8000 := by
  have code (index : Nat) (inside : index < 0x40000) : byteOr ramImage index 0 = 3 :=
    byteOr_filledBytes inside 0
  have declared : Header.romSizeOf? (byteOr ramImage 0x148 0) = some 0x40000 := by
    rw [code 0x148 (by decide)]
    rfl
  have supported : Header.kindOf? (byteOr ramImage 0x147 0) = some .mbc1 := by
    rw [code 0x147 (by decide)]
    rfl
  have size : ramImage.size = 0x40000 := size_filledBytes _ _
  have long : Header.headerEnd ≤ ramImage.size := by
    rw [size]
    decide
  refine ⟨_, ofImage_of_header long declared (Nat.le_of_eq size.symm) supported, rfl, ?_⟩
  rw [size_filledBytes, code 0x149 (by decide)]
  rfl

/-- Bank 6 of the four is bank 2. It still shows what was stored there before other banks were
written and before a write was lost because the RAM was off.
-/
theorem ram_keeps_last_stored_banked
    : let pokes : List Poke :=
        [⟨0x0000, 0x0A⟩, ⟨0x6000, 0x01⟩, ⟨0x4000, 0x02⟩, ⟨0xA005, 0x5A⟩, ⟨0x4000, 0x00⟩,
          ⟨0xA005, 0x11⟩, ⟨0x0000, 0x00⟩, ⟨0x4000, 0x06⟩, ⟨0xA005, 0x99⟩, ⟨0x1FFF, 0xFA⟩]
      ∃ cartridge,
        ofImage ramImage = .ok cartridge
        ∧ cartridge.ram.size ≠ 0
        ∧ (cartridge.after pokes).read 0xA005 = 0x5A
        ∧ (cartridge.after pokes).read 0xA006 = 0x00 := by
  intro pokes
  obtain ⟨cartridge, made, kind, size⟩ := ofImage_ramImage
  have filled : cartridge.ram.size ≠ 0 := by
    rw [size]
    decide
  obtain ⟨-, shown, -⟩ := ram_keeps_last_stored made filled pokes
  have written := shown 0xA005 (by decide) (by decide)
  have untouched := shown 0xA006 (by decide) (by decide)
  rw [kind, size] at written untouched
  refine ⟨cartridge, made, filled, written.trans ?_, untouched.trans ?_⟩
  · decide
  · decide

end Cartridge

end Handheld
