import Handheld.Cartridge.Basic
import Handheld.Proofs.Coupling

/-! How a cartridge comes about, and what writes can do to it. The image and the sizes stay; the
registers of the bank controller and the contents of the RAM may change, and only the clock is
refused.
-/

namespace Handheld

namespace Controller

@[simp]
theorem kind_initial (kind : ControllerKind)
    : (initial kind).kind = kind := by
  cases kind <;> rfl

/-- A write keeps the family of a controller, or it is the refused selection of a clock. -/
theorem write_cases (controller : Controller) (address : UInt16) (value : UInt8)
    : (∃ after, controller.write address value = .ok after ∧ after.kind = controller.kind)
      ∨ controller.write address value = .error (.clockSelect address value) := by
  cases controller with
  | fixed => exact .inl ⟨.fixed, rfl, rfl⟩
  | mbc1 romBank upper advanced enabled =>
      left
      simp only [write]
      split
      · exact ⟨_, rfl, rfl⟩
      split
      · exact ⟨_, rfl, rfl⟩
      split
      · exact ⟨_, rfl, rfl⟩
      · exact ⟨_, rfl, rfl⟩
  | mbc3 romBank bank enabled =>
      simp only [write]
      split
      · exact .inl ⟨_, rfl, rfl⟩
      split
      · exact .inl ⟨_, rfl, rfl⟩
      split
      · split
        · exact .inr rfl
        · exact .inl ⟨_, rfl, rfl⟩
      · exact .inl ⟨_, rfl, rfl⟩
  | mbc5 romBank bank enabled =>
      left
      simp only [write]
      split
      · exact ⟨_, rfl, rfl⟩
      split
      · exact ⟨_, rfl, rfl⟩
      split
      · exact ⟨_, rfl, rfl⟩
      split
      · exact ⟨_, rfl, rfl⟩
      · exact ⟨_, rfl, rfl⟩

end Controller

namespace Cartridge

-----------------------------------------------------------------------------------------
-- Bytes of which one was replaced
-----------------------------------------------------------------------------------------

theorem size_set (bytes : ByteArray) {cell : Nat} (there : cell < bytes.size) (value : UInt8)
    : (bytes.set cell value there).size = bytes.size := by
  simp only [ByteArray.set, ByteArray.size, Array.size_set]

/-- The byte that was replaced is read back, and all others are as they were. -/
theorem byteOr_set (bytes : ByteArray) {cell : Nat} (there : cell < bytes.size) (value : UInt8)
    (index : Nat) (default : UInt8)
    : byteOr (bytes.set cell value there) index default
      = if index = cell then value else byteOr bytes index default := by
  have size := size_set bytes there value
  unfold byteOr
  by_cases inside : index < bytes.size
  · rw [dif_pos (size.symm ▸ inside), dif_pos inside]
    have stored : index < (bytes.data.set cell value there).size := by
      rw [Array.size_set]
      exact inside
    refine (Array.getElem_set there stored).trans ?_
    by_cases same : cell = index
    · rw [if_pos same, if_pos same.symm]
    · rw [if_neg same, if_neg (Ne.symm same)]
      rfl
  · have other : index ≠ cell := fun same => inside (same ▸ there)
    rw [dif_neg (size.symm ▸ inside), dif_neg inside, if_neg other]

-----------------------------------------------------------------------------------------
-- What writes leave alone
-----------------------------------------------------------------------------------------

/-- What no write to a cartridge changes. -/
structure Shape where
  rom : ByteArray
  title : String
  typeCode : UInt8
  ramSize : Nat
  kind : ControllerKind

def shape (cartridge : Cartridge) : Shape :=
  { rom := cartridge.rom
    title := cartridge.title
    typeCode := cartridge.typeCode
    ramSize := cartridge.ram.size
    kind := cartridge.controller.kind }

/-- Cartridges of one shape differ at most in their RAM and in the state of their controller. -/
theorem eq_of_shape_eq {before after : Cartridge} (same : after.shape = before.shape)
    : after = { before with ram := after.ram, controller := after.controller } := by
  obtain ⟨rom, ram, title, typeCode, controller⟩ := after
  injection same with rom title typeCode
  dsimp only at rom title typeCode
  rw [rom, title, typeCode]

theorem shape_setRam (cartridge : Cartridge) (index : Nat) (value : UInt8)
    : (cartridge.setRam index value).shape = cartridge.shape := by
  unfold setRam
  split
  · simp only [shape, size_set]
  · rfl

/-- A write keeps the shape of a cartridge, or it is the refused selection of a clock. -/
theorem write_cases (address : UInt16) (value : UInt8) (cartridge : Cartridge)
    : (∃ after, write address value cartridge = .ok () after ∧ after.shape = cartridge.shape)
      ∨ write address value cartridge = .error (.clockSelect address value) cartridge := by
  have got : (get : Act Cartridge Cartridge) cartridge = .ok cartridge cartridge := rfl
  unfold write
  by_cases window : address < 0x8000
  · rw [if_pos window, Act.bind_of_ok got]
    rcases cartridge.controller.write_cases address value
      with ⟨controller, written, kind⟩ | refused
    · rw [written]
      refine .inl ⟨{ cartridge with controller }, rfl, ?_⟩
      rw [shape, kind]
      rfl
    · rw [refused]
      exact .inr rfl
  · rw [if_neg window]
    left
    split
    · refine ⟨_, rfl, ?_⟩
      dsimp only
      split
      · split
        · exact cartridge.shape_setRam _ value
        · rfl
      · rfl
    · exact ⟨cartridge, rfl, rfl⟩

/-- A cartridge made from an image has its controller in the state after power on. -/
theorem controller_of_ofImage {image : ByteArray} {cartridge : Cartridge}
    (made : ofImage image = .ok cartridge)
    : cartridge.controller = .initial cartridge.controller.kind := by
  unfold ofImage at made
  split at made
  · cases made
  · cases made
    simp only [Controller.kind_initial]

theorem rom_of_ofImage {image : ByteArray} {cartridge : Cartridge}
    (made : ofImage image = .ok cartridge)
    : cartridge.rom = image := by
  unfold ofImage at made
  split at made
  · cases made
  · cases made
    rfl

/-- A cartridge that was made has what its header declares, with cleared RAM. -/
theorem header_of_ofImage {image : ByteArray} {cartridge : Cartridge}
    (made : ofImage image = .ok cartridge)
    : ∃ header : Header,
        Header.ofImage image = .ok header
        ∧ cartridge.ram = filledBytes header.ramSize 0 := by
  unfold ofImage at made
  split at made
  · cases made
  · next header declared =>
      cases made
      exact ⟨header, declared, rfl⟩

/-- An accepted header has the sizes of its two codes, and its image is no shorter. -/
theorem sizes_of_header {image : ByteArray} {header : Header}
    (accepted : Header.ofImage image = .ok header)
    : Header.romSizeOf? (byteOr image 0x148 0) = some header.romSize
      ∧ header.romSize ≤ image.size
      ∧ header.ramSize = Header.ramSizeOf (byteOr image 0x149 0) := by
  unfold Header.ofImage at accepted
  split at accepted
  · cases accepted
  · dsimp only at accepted
    split at accepted
    · cases accepted
    · next romSize declared =>
        split at accepted
        · cases accepted
        · next whole =>
            split at accepted
            · cases accepted
            · cases accepted
              exact ⟨declared, Nat.le_of_not_lt whole, rfl⟩

/-- What is made from an image whose header is accepted. -/
theorem ofImage_of_header {image : ByteArray} {romSize : Nat} {kind : ControllerKind}
    (long : Header.headerEnd ≤ image.size)
    (declared : Header.romSizeOf? (byteOr image 0x148 0) = some romSize)
    (whole : romSize ≤ image.size)
    (supported : Header.kindOf? (byteOr image 0x147 0) = some kind)
    : ofImage image
      = .ok
        { rom := image
          ram := filledBytes (Header.ramSizeOf (byteOr image 0x149 0)) 0
          title := Header.titleOf image
          typeCode := byteOr image 0x147 0
          controller := .initial kind } := by
  simp only [ofImage, Header.ofImage, if_neg (Nat.not_lt.mpr long), declared,
    if_neg (Nat.not_lt.mpr whole), supported]

-----------------------------------------------------------------------------------------
-- Images with one byte that differs from the others
-----------------------------------------------------------------------------------------

/-- A run of equal bytes has that byte at every place. -/
theorem byteOr_filledBytes {size index : Nat} {fill : UInt8} (inside : index < size)
    (default : UInt8)
    : byteOr (filledBytes size fill) index default = fill := by
  have bound : index < (Array.replicate size fill).size := by
    simpa using inside
  exact (dif_pos bound).trans (Array.getElem_replicate bound)

theorem size_markedBytes {size cell : Nat} {fill value : UInt8}
    (there : cell < (filledBytes size fill).size)
    : ((filledBytes size fill).set cell value there).size = size :=
  (size_set _ there value).trans (size_filledBytes size fill)

theorem byteOr_markedBytes {size cell index : Nat} {fill value : UInt8}
    (there : cell < (filledBytes size fill).size) (inside : index < size) (default : UInt8)
    : byteOr ((filledBytes size fill).set cell value there) index default
      = if index = cell then value else fill := by
  rw [byteOr_set, byteOr_filledBytes inside]

end Cartridge

end Handheld
