import Handheld.Proofs.Board.Faults

/-! What of a run survives a reset. A machine is started anew with its own set-up, so processor,
memories and devices are those of a new machine. The cartridge stays inserted as the run left
it: with its RAM, and with the registers of its bank controller.
-/

namespace Handheld

namespace Machine

/-- How a machine was put together. -/
def setup (machine : Machine) : MachineSetup :=
  { policy := machine.board.bus.policy
    bootCode := machine.board.bus.boot.code }

/-- A reset puts the machine together again and inserts the cartridge as it stands. -/
theorem reset_of_cartridge {machine : Machine} {cartridge : Cartridge}
    (inserted : machine.board.bus.cartridge = some cartridge)
    : machine.reset = (ofSetup machine.setup).insert cartridge := by
  simp only [reset, inserted]
  rfl

/-- Machines of one set-up differ when their cartridges do. -/
theorem insert_inj (machine : Machine) {left right : Cartridge}
    : machine.insert left = machine.insert right ↔ left = right := by
  constructor
  · intro same
    exact Option.some.inj (congrArg (·.board.bus.cartridge) same)
  · intro same
    rw [same]

theorem setup_after (machine : Machine) (calls : List Board.Call)
    : (machine.after calls).setup = machine.setup := by
  have same := Board.assembly_after calls machine.board
  have policy : (machine.after calls).board.bus.policy = machine.board.bus.policy :=
    congrArg Bus.Assembly.policy same
  have bootCode : (machine.after calls).board.bus.boot.code = machine.board.bus.boot.code :=
    congrArg Bus.Assembly.bootCode same
  rw [setup, policy, bootCode]
  rfl

/-- A cartridge keeps its shape in a run, so that only its RAM and its controller change. -/
theorem cartridge_after (machine : Machine) (cartridge : Cartridge) (calls : List Board.Call)
    : ∃ ram controller,
        ((machine.insert cartridge).after calls).board.bus.cartridge
          = some { cartridge with ram, controller }
        ∧ ram.size = cartridge.ram.size
        ∧ controller.kind = cartridge.controller.kind := by
  have same := Board.assembly_after calls (machine.insert cartridge).board
  have shapes
      : ((machine.insert cartridge).after calls).board.bus.cartridge.map Cartridge.shape
        = some cartridge.shape := congrArg Bus.Assembly.cartridge same
  obtain ⟨final, found, shape⟩ := Option.map_eq_some_iff.mp shapes
  refine ⟨final.ram, final.controller, ?_, ?_, ?_⟩
  · rw [found, ← Cartridge.eq_of_shape_eq shape]
  · exact congrArg Cartridge.Shape.ramSize shape
  · exact congrArg Cartridge.Shape.kind shape

-----------------------------------------------------------------------------------------
-- An image whose banks can be told apart
-----------------------------------------------------------------------------------------

/-- An image of four banks that holds ones, but for a two at the start of bank 2. -/
def bankedImage : ByteArray :=
  (filledBytes 0x10000 1).set 0x8000 2 (by rw [size_filledBytes]; decide)

theorem size_bankedImage
    : bankedImage.size = 0x10000 :=
  Cartridge.size_markedBytes _

theorem byteOr_bankedImage {index : Nat} (inside : index < 0x10000) (default : UInt8)
    : byteOr bankedImage index default = if index = 0x8000 then 2 else 1 :=
  Cartridge.byteOr_markedBytes _ inside default

/-- The cartridge that is made from the image, with its controller in some state. -/
def bankedCartridge (controller : Controller) : Cartridge :=
  { rom := bankedImage
    ram := filledBytes 0x800 0
    title := Header.titleOf bankedImage
    typeCode := 1
    controller }

theorem ofImage_bankedImage
    : Cartridge.ofImage bankedImage = .ok (bankedCartridge (.mbc1 1 0 false false)) := by
  have type : byteOr bankedImage 0x147 0 = 1 := byteOr_bankedImage (by decide) 0
  have romCode : byteOr bankedImage 0x148 0 = 1 := byteOr_bankedImage (by decide) 0
  have ramCode : byteOr bankedImage 0x149 0 = 1 := byteOr_bankedImage (by decide) 0
  have declared : Header.romSizeOf? (byteOr bankedImage 0x148 0) = some 0x10000 := by
    rw [romCode]
    rfl
  have supported : Header.kindOf? (byteOr bankedImage 0x147 0) = some .mbc1 := by
    rw [type]
    rfl
  have whole : 0x10000 ≤ bankedImage.size := Nat.le_of_eq size_bankedImage.symm
  have long : Header.headerEnd ≤ bankedImage.size := Nat.le_trans (by decide) whole
  rw [Cartridge.ofImage_of_header long declared whole supported, type, ramCode]
  rfl

/-- The window at 0x4000 starts with the two when bank 2 is selected, and with a one otherwise. -/
theorem answers_bankedCartridge (bank : UInt8) (present : bank < 4)
    : (new.insert (bankedCartridge (.mbc1 bank 0 false false))).answers [.read 0x4000]
      = [.ok (.byte (if bank = 2 then 2 else 1))] := by
  have window (cartridge : Cartridge)
      : (new.insert cartridge).answers [.read 0x4000]
        = [.ok (.byte (byteOr cartridge.rom
            (cartridge.highBank * Cartridge.romBankSize + 0) 0xFF))] := rfl
  have banks (controller : Controller) : (bankedCartridge controller).romBanks = 4 := by
    rw [Cartridge.romBanks, bankedCartridge, size_bankedImage]
    rfl
  have small : bank.toNat < 4 := UInt8.lt_iff_toNat_lt.mp present
  have shown : (bankedCartridge (.mbc1 bank 0 false false)).highBank = bank.toNat := by
    rw [Cartridge.highBank, banks]
    change (0 * 32 + bank.toNat) % 4 = bank.toNat
    omega
  rw [window, shown]
  change [Except.ok (Board.Answer.byte (byteOr bankedImage (bank.toNat * 0x4000 + 0) 0xFF))] = _
  rw [byteOr_bankedImage (by omega)]
  have two : bank.toNat * 0x4000 + 0 = 0x8000 ↔ bank = 2 := by
    rw [← UInt8.toNat_inj]
    change _ ↔ bank.toNat = 2
    omega
  simp only [two]

/-- A write below 0x4000 selects the bank. -/
theorem cartridge_after_select (rom ram : ByteArray) (title : String) (typeCode : UInt8)
    : ((new.insert ⟨rom, ram, title, typeCode, .mbc1 1 0 false false⟩).after
        [.write 0x2000 2]).board.bus.cartridge
      = some ⟨rom, ram, title, typeCode, .mbc1 2 0 false false⟩ :=
  rfl

-----------------------------------------------------------------------------------------
-- Reset after a run
-----------------------------------------------------------------------------------------

/-- A machine that was reset after some calls is a new machine of the same set-up, with the
cartridge as the calls left it. Beside the contents of its RAM this is the cartridge that was
made from the image exactly when the calls left its bank controller in the state after power on.
-/
theorem reset_after_calls {image : ByteArray} {cartridge : Cartridge}
    (made : Cartridge.ofImage image = .ok cartridge) (machine : Machine)
    (calls : List Board.Call)
    : ∃ ram controller,
        ram.size = cartridge.ram.size
        ∧ controller.kind = cartridge.controller.kind
        ∧ ((machine.insert cartridge).after calls).board.bus.cartridge
          = some { cartridge with ram, controller }
        ∧ ((machine.insert cartridge).after calls).reset
          = (ofSetup machine.setup).insert { cartridge with ram, controller }
        ∧ (((machine.insert cartridge).after calls).reset
            = (ofSetup machine.setup).insert { cartridge with ram }
          ↔ controller = .initial controller.kind) := by
  obtain ⟨ram, controller, left, size, kind⟩ := cartridge_after machine cartridge calls
  have anew : ((machine.insert cartridge).after calls).reset
      = (ofSetup machine.setup).insert { cartridge with ram, controller } := by
    rw [reset_of_cartridge left, setup_after]
    rfl
  refine ⟨ram, controller, size, kind, left, anew, ?_⟩
  rw [anew, insert_inj, kind, ← Cartridge.controller_of_ofImage made]
  constructor
  · intro same
    exact congrArg Cartridge.controller same
  · intro same
    rw [same]

/-- Before a run the window at 0x4000 shows bank 1; after a reset it still shows the bank that the
run selected.
-/
theorem reset_keeps_bank
    : ∃ cartridge,
        Cartridge.ofImage bankedImage = .ok cartridge
        ∧ (new.insert cartridge).answers [.read 0x4000] = [.ok (.byte 1)]
        ∧ ((new.insert cartridge).after [.write 0x2000 2]).reset.answers [.read 0x4000]
          = [.ok (.byte 2)] := by
  have selected := cartridge_after_select bankedImage (filledBytes 0x800 0)
    (Header.titleOf bankedImage) 1
  refine ⟨_, ofImage_bankedImage, answers_bankedCartridge 1 (by decide), ?_⟩
  refine (congrArg (answers · [.read 0x4000]) (reset_of_cartridge selected)).trans ?_
  rw [setup_after]
  exact answers_bankedCartridge 2 (by decide)

/-- So the reset machine is not the new one. -/
theorem reset_after_calls_banked
    : Cartridge.ofImage bankedImage = .ok (bankedCartridge (.mbc1 1 0 false false))
      ∧ ∃ ram,
        ram.size = 0x800
        ∧ ((new.insert (bankedCartridge (.mbc1 1 0 false false))).after [.write 0x2000 2]).reset
          = new.insert { bankedCartridge (.mbc1 2 0 false false) with ram }
        ∧ ((new.insert (bankedCartridge (.mbc1 1 0 false false))).after [.write 0x2000 2]).reset
          ≠ new.insert { bankedCartridge (.mbc1 1 0 false false) with ram } := by
  obtain ⟨ram, controller, size, -, left, anew, initial⟩ :=
    reset_after_calls ofImage_bankedImage new [.write 0x2000 2]
  have selected := cartridge_after_select bankedImage (filledBytes 0x800 0)
    (Header.titleOf bankedImage) 1
  have bank : controller = .mbc1 2 0 false false :=
    congrArg Cartridge.controller (Option.some.inj (left.symm.trans selected))
  subst bank
  refine ⟨ofImage_bankedImage, ram, ?_, anew, ?_⟩
  · rw [size, bankedCartridge, size_filledBytes]
  · exact fun same => absurd (initial.mp same) (by decide)

end Machine

end Handheld
