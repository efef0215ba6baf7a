import Handheld.Proofs.Cartridge
import Handheld.Proofs.Cartridge.LastWrite

/-! Which banks a cartridge shows after any writes to it. The registers of its controller hold what
was last written to each of them, so the banks are a matter of arithmetic on those bytes.
-/

namespace Handheld

-----------------------------------------------------------------------------------------
-- Banks
-----------------------------------------------------------------------------------------

/-- The banks that a controller selects, before reduction to the banks present. -/
structure BankSelection where
  low : Nat
  high : Nat
  ram : Nat
  deriving DecidableEq

namespace Controller

open Poke

def selection (controller : Controller) : BankSelection :=
  { low := controller.lowBank, high := controller.highBank, ram := controller.ramBank }

/-- What some writes select on a controller of a family. -/
def selectionBy (pokes : List Poke) : ControllerKind → BankSelection
  | .fixed => { low := 0, high := 1, ram := 0 }
  | .mbc1 =>
      let bank := max 1 (lastTo 0x2000 0x3FFF 1 pokes % 32)
      let upper := lastTo 0x4000 0x5FFF 0 pokes % 4
      let advanced := lastTo 0x6000 0x7FFF 0 pokes % 2 = 1
      { low := if advanced then 32 * upper else 0
        high := 32 * upper + bank
        ram := if advanced then upper else 0 }
  | .mbc3 =>
      { low := 0
        high := max 1 (lastTo 0x2000 0x3FFF 1 pokes % 128)
        ram := lastTo 0x4000 0x5FFF 0 (withoutClock pokes) % 4 }
  | .mbc5 =>
      { low := 0
        high := 256 * (lastTo 0x3000 0x3FFF 0 pokes % 2) + lastTo 0x2000 0x2FFF 1 pokes
        ram := lastTo 0x4000 0x5FFF 0 pokes % 16 }

variable {controller : Controller} {pokes : List Poke}

theorem Holds.selection_eq (holds : controller.Holds pokes)
    : controller.selection = selectionBy pokes controller.kind := by
  cases controller with
  | fixed => rfl
  | mbc1 romBank upper advanced enabled =>
      obtain ⟨bank, above, mode, -⟩ := holds
      simp only [selection, selectionBy, kind, highBank, ramBank, ← bank, ← above, ← mode,
        Nat.mul_comm 32]
      cases advanced <;> rfl
  | mbc3 romBank ramBank enabled =>
      obtain ⟨bank, above, -⟩ := holds
      simp only [selection, selectionBy, kind, highBank, Controller.ramBank, ← bank, ← above]
      rfl
  | mbc5 romBank ramBank enabled =>
      obtain ⟨bank, above, -⟩ := holds
      simp only [selection, selectionBy, kind, highBank, Controller.ramBank, ← bank, ← above]
      rfl

theorem Holds.ramEnabled_iff (holds : controller.Holds pokes)
    : controller.ramEnabled
      ↔ controller.kind = .fixed ∨ lastTo 0x0000 0x1FFF 0 pokes % 16 = 10 := by
  cases controller with
  | fixed => exact ⟨fun _ => .inl rfl, fun _ => rfl⟩
  | mbc1 => simpa [ramEnabled, kind] using holds.2.2.2
  | mbc3 | mbc5 => simpa [ramEnabled, kind] using holds.2.2

end Controller

-----------------------------------------------------------------------------------------
-- Cartridges
-----------------------------------------------------------------------------------------

namespace Cartridge

/-- The cartridge after a write, refused or not. -/
def poked (cartridge : Cartridge) (poke : Poke) : Cartridge :=
  (write poke.address poke.value).endsIn cartridge

/-- The cartridge after some writes. -/
def after (cartridge : Cartridge) (pokes : List Poke) : Cartridge :=
  pokes.foldl poked cartridge

/-- Below 0x8000 a write is one to the controller. -/
theorem write_of_low {address : UInt16} (low : address < 0x8000) (value : UInt8)
    (cartridge : Cartridge)
    : write address value cartridge
      = match cartridge.controller.write address value with
        | .ok controller => .ok () { cartridge with controller }
        | .error fault => .error fault cartridge := by
  have got : (get : Act Cartridge Cartridge) cartridge = .ok cartridge cartridge := rfl
  unfold write
  rw [if_pos low, Act.bind_of_ok got]
  cases cartridge.controller.write address value <;> rfl

/-- Elsewhere it succeeds and leaves the controller alone. -/
theorem write_of_high {address : UInt16} (high : ¬address < 0x8000) (value : UInt8)
    (cartridge : Cartridge)
    : ∃ after,
        write address value cartridge = .ok () after
        ∧ after.controller = cartridge.controller := by
  unfold write
  rw [if_neg high]
  split
  · refine ⟨_, rfl, ?_⟩
    dsimp only
    split
    · split
      · unfold setRam
        split <;> rfl
      · rfl
    · rfl
  · exact ⟨cartridge, rfl, rfl⟩

theorem shape_poked (cartridge : Cartridge) (poke : Poke)
    : (cartridge.poked poke).shape = cartridge.shape := by
  unfold poked Act.endsIn
  rcases write_cases poke.address poke.value cartridge with ⟨after, written, same⟩ | refused
  · rw [written]
    exact same
  · rw [refused]

variable {cartridge : Cartridge} {pokes : List Poke}

/-- After one more write the registers hold what was last written. -/
theorem holds_poked (holds : cartridge.controller.Holds pokes) (poke : Poke)
    : (cartridge.poked poke).controller.Holds (pokes ++ [poke]) := by
  unfold poked Act.endsIn
  by_cases low : poke.address < 0x8000
  · rw [write_of_low low]
    cases written : cartridge.controller.write poke.address poke.value with
    | ok controller => exact holds.write (UInt16.lt_iff_toNat_lt.mp low) written
    | error fault => exact holds.refused written
  · obtain ⟨after, written, same⟩ := write_of_high low poke.value cartridge
    rw [written]
    change after.controller.Holds _
    rw [same]
    exact holds.beyond (Nat.le_of_not_lt fun h => low (UInt16.lt_iff_toNat_lt.mpr h))

/-- So they do after any further writes, by induction on these. -/
theorem holds_after (holds : cartridge.controller.Holds pokes) (more : List Poke)
    : (cartridge.after more).controller.Holds (pokes ++ more) := by
  induction more generalizing cartridge pokes with
  | nil =>
      rw [List.append_nil]
      exact holds
  | cons poke rest ih =>
      have next := ih (holds_poked holds poke)
      rw [List.append_assoc] at next
      exact next

theorem shape_after (cartridge : Cartridge) (pokes : List Poke)
    : (cartridge.after pokes).shape = cartridge.shape := by
  induction pokes generalizing cartridge with
  | nil => rfl
  | cons poke rest ih => exact (ih (cartridge.poked poke)).trans (cartridge.shape_poked poke)

/-- A write is refused when it would select a register of a clock, and then it changes nothing. -/
theorem write_error_iff {address : UInt16} {value : UInt8} {fault : Fault} {left : Cartridge}
    : write address value cartridge = .error fault left
      ↔ cartridge.controller.kind = .mbc3
        ∧ (0x4000 ≤ address.toNat ∧ address.toNat ≤ 0x5FFF)
        ∧ (0x08 ≤ value.toNat ∧ value.toNat ≤ 0x0C)
        ∧ fault = .clockSelect address value
        ∧ left = cartridge := by
  have clock : Poke.namesClock ⟨address, value⟩ ↔ 0x08 ≤ value.toNat ∧ value.toNat ≤ 0x0C := by
    simp [Poke.namesClock, UInt8.le_iff_toNat_le]
  by_cases low : address < 0x8000
  · rw [write_of_low low, ← clock]
    cases written : cartridge.controller.write address value with
    | ok controller =>
        constructor
        · intro failed
          cases failed
        · rintro ⟨kind, ⟨least, most⟩, names, rfl, -⟩
          have refused := Controller.write_error_iff.mpr ⟨kind, least, most, names, rfl⟩
          rw [refused] at written
          cases written
    | error found =>
        obtain ⟨kind, least, most, names, cause⟩ := Controller.write_error_iff.mp written
        constructor
        · rintro ⟨⟩
          exact ⟨kind, ⟨least, most⟩, names, cause, rfl⟩
        · rintro ⟨-, -, -, rfl, rfl⟩
          rw [cause]
  · have high : 0x8000 ≤ address.toNat :=
      Nat.le_of_not_lt fun h => low (UInt16.lt_iff_toNat_lt.mpr h)
    obtain ⟨after, written, -⟩ := write_of_high low value cartridge
    rw [written]
    constructor
    · intro failed
      cases failed
    · rintro ⟨-, ⟨-, most⟩, -⟩
      omega

/-- Banks depend on the last writes alone. After any writes to a cartridge made from an image,
refused ones among them, the RAM is on and the windows show banks as the last write to each
register's addresses says. The next write is refused exactly when it would select a register of a
clock, and then it changes nothing.
-/
theorem banks_of_last_writes {image : ByteArray} {cartridge : Cartridge}
    (made : ofImage image = .ok cartridge) (pokes : List Poke)
    : let after := cartridge.after pokes
      let kind := cartridge.controller.kind
      let selected := Controller.selectionBy pokes kind
      let banks := max 1 (image.size / 0x4000)
      (after.controller.ramEnabled
        ↔ kind = .fixed ∨ Poke.lastTo 0x0000 0x1FFF 0 pokes % 16 = 10)
      ∧ after.lowBank = selected.low % banks
      ∧ after.highBank = selected.high % banks
      ∧ after.controller.ramBank = selected.ram
      ∧ (∀ address, address < 0x4000
        → after.read address
          = byteOr image (selected.low % banks * 0x4000 + address.toNat) 0xFF)
      ∧ (∀ address, 0x4000 ≤ address → address < 0x8000
        → after.read address
          = byteOr image (selected.high % banks * 0x4000 + (address.toNat - 0x4000)) 0xFF)
      ∧ ∀ address value fault left,
          write address value after = .error fault left
          ↔ kind = .mbc3
            ∧ (0x4000 ≤ address.toNat ∧ address.toNat ≤ 0x5FFF)
            ∧ (0x08 ≤ value.toNat ∧ value.toNat ≤ 0x0C)
            ∧ fault = .clockSelect address value
            ∧ left = after := by
  intro after kind selected banks
  have started : cartridge.controller.Holds [] := by
    rw [controller_of_ofImage made]
    exact Controller.holds_initial _
  have holds : after.controller.Holds pokes := holds_after started pokes
  have shape : after.shape = cartridge.shape := cartridge.shape_after pokes
  have sameKind : after.controller.kind = kind := congrArg Shape.kind shape
  have rom : after.rom = image := (congrArg Shape.rom shape).trans (rom_of_ofImage made)
  have present : after.romBanks = banks := by
    rw [romBanks, rom, Nat.max_comm]
    rfl
  have selection : after.controller.selection = selected := by
    rw [holds.selection_eq, sameKind]
  have low : after.lowBank = selected.low % banks := by
    rw [lowBank, present, ← selection]
    rfl
  have high : after.highBank = selected.high % banks := by
    rw [highBank, present, ← selection]
    rfl
  have ram : after.controller.ramBank = selected.ram := congrArg BankSelection.ram selection
  refine ⟨sameKind ▸ holds.ramEnabled_iff, low, high, ram, ?_, ?_, ?_⟩
  · intro address below
    rw [read, if_pos below, low, rom]
    rfl
  · intro address above below
    have notLow : ¬address < 0x4000 := UInt16.not_lt.mpr above
    rw [read, if_neg notLow, if_pos below, high, rom]
    rfl
  · intro address value fault left
    rw [write_error_iff, sameKind]

/-- An image of sixteen banks with a clock on its board. -/
def clockImage : ByteArray :=
  (filledBytes 0x40000 3).set 0x147 0x13 (by rw [size_filledBytes]; decide)

theorem kind_of_clockImage
    : ∃ cartridge, ofImage clockImage = .ok cartridge ∧ cartridge.controller.kind = .mbc3 := by
  have size : clockImage.size = 0x40000 := size_markedBytes _
  have type : byteOr clockImage 0x147 0 = 0x13 := byteOr_markedBytes _ (by decide) 0
  have romCode : byteOr clockImage 0x148 0 = 3 := byteOr_markedBytes _ (by decide) 0
  have declared : Header.romSizeOf? (byteOr clockImage 0x148 0) = some 0x40000 := by
    rw [romCode]
    rfl
  have supported : Header.kindOf? (byteOr clockImage 0x147 0) = some .mbc3 := by
    rw [type]
    rfl
  have whole : 0x40000 ≤ clockImage.size := Nat.le_of_eq size.symm
  have long : Header.headerEnd ≤ clockImage.size := Nat.le_trans (by decide) whole
  exact ⟨_, ofImage_of_header long declared whole supported, rfl⟩

/-- Bank 21 is the sixth of sixteen; the RAM is on, and the refused selection of a clock leaves its
bank 2 selected.
-/
theorem banks_of_last_writes_clock
    : let pokes : List Poke :=
        [⟨0x2000, 0x00⟩, ⟨0x1FFF, 0x1A⟩, ⟨0x4000, 0x02⟩, ⟨0x3FFF, 0x95⟩, ⟨0x5FFF, 0x0C⟩]
      ∃ cartridge,
        ofImage clockImage = .ok cartridge
        ∧ (cartridge.after pokes).controller.ramEnabled
        ∧ (cartridge.after pokes).highBank = 5
        ∧ (cartridge.after pokes).controller.ramBank = 2
        ∧ (cartridge.after pokes).read 0x4000 = byteOr clockImage 0x14000 0xFF
        ∧ write 0x4000 0x08 (cartridge.after pokes)
          = .error (.clockSelect 0x4000 0x08) (cartridge.after pokes) := by
  intro pokes
  obtain ⟨cartridge, made, kind⟩ := kind_of_clockImage
  have banks : max 1 (clockImage.size / 0x4000) = 16 := by
    rw [clockImage, size_markedBytes]
    rfl
  have selected : Controller.selectionBy pokes .mbc3 = { low := 0, high := 21, ram := 2 } := by
    decide
  obtain ⟨enabled, -, high, ram, -, shown, refused⟩ := banks_of_last_writes made pokes
  rw [kind, selected] at high ram shown
  rw [banks] at high shown
  rw [kind] at refused
  exact ⟨cartridge, made, enabled.mpr (.inr (by decide)), high, ram,
    shown 0x4000 (by decide) (by decide),
    (refused _ _ _ _).mpr ⟨rfl, by decide, by decide, rfl, rfl⟩⟩

end Cartridge

end Handheld
