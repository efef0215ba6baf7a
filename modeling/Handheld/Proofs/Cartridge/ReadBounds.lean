import Handheld.Proofs.Cartridge.Banking

/-! Where a cartridge reads. An accepted image holds two whole banks or more, and whatever is
written, the windows show whole banks of it. So a read finds a byte of the image or of the RAM.
-/

namespace Handheld

/-- No size code declares fewer than two banks. -/
theorem Header.le_of_romSizeOf? {code : UInt8} {romSize : Nat}
    (declared : romSizeOf? code = some romSize)
    : 0x8000 ≤ romSize := by
  unfold romSizeOf? at declared
  split at declared
  · cases declared
    rw [Nat.shiftLeft_eq]
    exact Nat.le_mul_of_pos_right _ (Nat.two_pow_pos _)
  · cases declared

/-- The byte at an index that lies inside. -/
theorem byteOr_of_lt {bytes : ByteArray} {index : Nat} (inside : index < bytes.size)
    (default : UInt8)
    : byteOr bytes index default = bytes.get index inside :=
  dif_pos inside

namespace Cartridge

-----------------------------------------------------------------------------------------
-- Whole banks
-----------------------------------------------------------------------------------------

/-- An accepted image holds two whole banks or more. -/
theorem two_le_banks_of_ofImage {image : ByteArray} {cartridge : Cartridge}
    (made : ofImage image = .ok cartridge)
    : 2 ≤ image.size / romBankSize := by
  obtain ⟨header, accepted, -⟩ := header_of_ofImage made
  obtain ⟨declared, whole, -⟩ := sizes_of_header accepted
  have least : 2 * romBankSize ≤ image.size :=
    Nat.le_trans (Header.le_of_romSizeOf? declared) whole
  exact (Nat.le_div_iff_mul_le (by decide)).mpr least

/-- An offset within a whole bank lies inside the image. -/
theorem bank_inside {size bank offset : Nat} (whole : bank < size / romBankSize)
    (within : offset < romBankSize)
    : bank * romBankSize + offset < size := by
  unfold romBankSize at *
  omega

variable {cartridge : Cartridge} {address : UInt16}

section

variable (two : 2 ≤ cartridge.rom.size / romBankSize)

include two

/-- Then the banks present are the whole ones. -/
theorem romBanks_eq
    : cartridge.romBanks = cartridge.rom.size / romBankSize :=
  Nat.max_eq_left (Nat.le_of_succ_le two)

theorem lowBank_lt
    : cartridge.lowBank < cartridge.rom.size / romBankSize := by
  rw [lowBank, romBanks_eq two]
  exact Nat.mod_lt _ (Nat.lt_of_lt_of_le (by decide) two)

theorem highBank_lt
    : cartridge.highBank < cartridge.rom.size / romBankSize := by
  rw [highBank, romBanks_eq two]
  exact Nat.mod_lt _ (Nat.lt_of_lt_of_le (by decide) two)

/-- The lower window gives bytes of the bank that it shows. -/
theorem read_low (below : address < 0x4000)
    : ∃ inside : cartridge.lowBank * romBankSize + address.toNat < cartridge.rom.size,
        cartridge.read address = cartridge.rom.get _ inside := by
  have inside := bank_inside (lowBank_lt two) (UInt16.lt_iff_toNat_lt.mp below)
  refine ⟨inside, ?_⟩
  rw [read, if_pos below, byteOr_of_lt inside]

/-- So does the upper one. -/
theorem read_high (above : 0x4000 ≤ address) (below : address < 0x8000)
    : ∃ inside
        : cartridge.highBank * romBankSize + (address.toNat - 0x4000) < cartridge.rom.size,
        cartridge.read address = cartridge.rom.get _ inside := by
  have notLow : ¬address < 0x4000 := UInt16.not_lt.mpr above
  have high : address.toNat < 0x8000 := UInt16.lt_iff_toNat_lt.mp below
  have within : address.toNat - 0x4000 < romBankSize := by
    unfold romBankSize
    omega
  have inside := bank_inside (highBank_lt two) within
  refine ⟨inside, ?_⟩
  rw [read, if_neg notLow, if_pos below, byteOr_of_lt inside]

end

/-- A place in the RAM is reduced to its size. -/
theorem ramIndex?_lt {index : Nat} (found : cartridge.ramIndex? address = some index)
    : index < cartridge.ram.size := by
  unfold ramIndex? at found
  split at found
  · cases found
  · next filled =>
      rw [← Option.some.inj found]
      exact Nat.mod_lt _ (Nat.pos_of_ne_zero filled)

-----------------------------------------------------------------------------------------
-- After any writes
-----------------------------------------------------------------------------------------

/-- Reads stay inside the image. After any writes to a cartridge made from an image the image and
the size of the RAM are what they were, the banks shown are whole banks of the image, every read in
a ROM window gives the byte at its place in the bank that is shown there, and a place in the RAM is
one that it has.
-/
theorem reads_stay_inside {image : ByteArray} {cartridge : Cartridge}
    (made : ofImage image = .ok cartridge) (pokes : List Poke)
    : let after := cartridge.after pokes
      let banks := image.size / 0x4000
      after.rom = image
      ∧ after.ram.size = cartridge.ram.size
      ∧ 2 ≤ banks
      ∧ after.lowBank < banks
      ∧ after.highBank < banks
      ∧ (∀ address, address < 0x4000
        → ∃ inside : after.lowBank * 0x4000 + address.toNat < image.size,
          after.read address = image.get _ inside)
      ∧ (∀ address, 0x4000 ≤ address → address < 0x8000
        → ∃ inside : after.highBank * 0x4000 + (address.toNat - 0x4000) < image.size,
          after.read address = image.get _ inside)
      ∧ ∀ address index, after.ramIndex? address = some index → index < after.ram.size := by
  intro after banks
  have shape : after.shape = cartridge.shape := cartridge.shape_after pokes
  have rom : after.rom = image := (congrArg Shape.rom shape).trans (rom_of_ofImage made)
  have ramSize : after.ram.size = cartridge.ram.size := congrArg Shape.ramSize shape
  have two : 2 ≤ after.rom.size / romBankSize := by
    rw [rom]
    exact two_le_banks_of_ofImage made
  have low := lowBank_lt two
  have high := highBank_lt two
  have lowReads := fun address => @read_low after address two
  have highReads := fun address => @read_high after address two
  rw [rom] at two low high lowReads highReads
  exact ⟨rom, ramSize, two, low, high, lowReads, highReads, fun _ _ found => ramIndex?_lt found⟩

/-- An image of four banks and a part of a fifth that holds ones, but for one byte of bank 3. -/
def oddImage : ByteArray :=
  (filledBytes 0x12345 1).set 0xC007 0x77 (by rw [size_filledBytes]; decide)

/-- The cartridge that is made from it, with its controller in some state. -/
def oddCartridge (controller : Controller) : Cartridge :=
  { rom := oddImage
    ram := filledBytes 0x800 0
    title := Header.titleOf oddImage
    typeCode := 1
    controller }

theorem ofImage_oddImage
    : ofImage oddImage = .ok (oddCartridge (.mbc1 1 0 false false)) := by
  have size : oddImage.size = 0x12345 := size_markedBytes _
  have type : byteOr oddImage 0x147 0 = 1 := byteOr_markedBytes _ (by decide) 0
  have romCode : byteOr oddImage 0x148 0 = 1 := byteOr_markedBytes _ (by decide) 0
  have ramCode : byteOr oddImage 0x149 0 = 1 := byteOr_markedBytes _ (by decide) 0
  have declared : Header.romSizeOf? (byteOr oddImage 0x148 0) = some 0x10000 := by
    rw [romCode]
    rfl
  have supported : Header.kindOf? (byteOr oddImage 0x147 0) = some .mbc1 := by
    rw [type]
    rfl
  have whole : 0x10000 ≤ oddImage.size := by
    rw [size]
    decide
  have long : Header.headerEnd ≤ oddImage.size := Nat.le_trans (by decide) whole
  rw [ofImage_of_header long declared whole supported, type, ramCode]
  rfl

/-- Bank 127 of the four whole ones is bank 3, which the upper window shows, while the partial one
is never shown.
-/
theorem reads_stay_inside_odd
    : ∃ cartridge,
        ofImage oddImage = .ok cartridge
        ∧ let after := cartridge.after [⟨0x2000, 0xFF⟩, ⟨0x4000, 0x03⟩]
          after.rom = oddImage
          ∧ after.highBank = 3
          ∧ after.highBank < oddImage.size / 0x4000
          ∧ after.read 0x4007 = 0x77 := by
  refine ⟨_, ofImage_oddImage, ?_⟩
  have selects (rom ram : ByteArray) (title : String) (typeCode : UInt8)
      (size : rom.size = 0x12345)
      : (Cartridge.after ⟨rom, ram, title, typeCode, .mbc1 1 0 false false⟩
          [⟨0x2000, 0xFF⟩, ⟨0x4000, 0x03⟩]).highBank = 3 := by
    have selected
        : Cartridge.after ⟨rom, ram, title, typeCode, .mbc1 1 0 false false⟩
            [⟨0x2000, 0xFF⟩, ⟨0x4000, 0x03⟩]
          = ⟨rom, ram, title, typeCode, .mbc1 31 3 false false⟩ := rfl
    rw [selected, highBank, romBanks, size]
    change 127 % max (0x12345 / 0x4000) 1 = 3
    decide
  have bank : ((oddCartridge (.mbc1 1 0 false false)).after
      [⟨0x2000, 0xFF⟩, ⟨0x4000, 0x03⟩]).highBank = 3 :=
    selects _ _ _ _ (size_markedBytes _)
  obtain ⟨rom, -, -, -, present, -, shown, -⟩ :=
    reads_stay_inside ofImage_oddImage [⟨0x2000, 0xFF⟩, ⟨0x4000, 0x03⟩]
  have marked : byteOr oddImage 0xC007 0xFF = 0x77 :=
    (byteOr_markedBytes _ (by decide) 0xFF).trans (if_pos rfl)
  obtain ⟨inside, found⟩ := shown 0x4007 (by decide) (by decide)
  have place : 3 * 0x4000 + ((0x4007 : UInt16).toNat - 0x4000) = 0xC007 := by decide
  refine ⟨rom, bank, present, ?_⟩
  rw [found, ← byteOr_of_lt inside 0xFF, bank, place, marked]

end Cartridge

end Handheld
