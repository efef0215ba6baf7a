import Handheld.Cartridge.Header

/-! A cartridge: its ROM image, external RAM and bank controller, and the windows through
which they are read and written.
-/

namespace Handheld

/-- An inserted cartridge. -/
structure Cartridge where
  rom : ByteArray
  ram : ByteArray
  title : String
  typeCode : UInt8
  controller : Controller

namespace Cartridge

def romBankSize : Nat :=
  0x4000

def ramBankSize : Nat :=
  0x2000

/-- A cartridge made from an image, with cleared RAM. -/
def ofImage (image : ByteArray) : Except ImageFault Cartridge :=
  match Header.ofImage image with
  | .error fault => .error fault
  | .ok header =>
      .ok { rom := image, ram := filledBytes header.ramSize 0, title := header.title,
            typeCode := header.typeCode, controller := .initial header.kind }

/-- Whole ROM banks in the image, at least one. -/
def romBanks (cartridge : Cartridge) : Nat :=
  max (cartridge.rom.size / romBankSize) 1

/-- RAM banks, counting a partial one as whole. -/
def ramBanks (cartridge : Cartridge) : Nat :=
  (cartridge.ram.size + (ramBankSize - 1)) / ramBankSize

/-- The bank shown in the window at 0x0000. -/
def lowBank (cartridge : Cartridge) : Nat :=
  cartridge.controller.lowBank % cartridge.romBanks

/-- The bank shown in the window at 0x4000. -/
def highBank (cartridge : Cartridge) : Nat :=
  cartridge.controller.highBank % cartridge.romBanks

/-- The byte of RAM behind an address of the window at 0xA000, if there is RAM. -/
def ramIndex? (cartridge : Cartridge) (address : UInt16) : Option Nat :=
  if cartridge.ram.size = 0 then none
  else
    let bank := cartridge.controller.ramBank % cartridge.ramBanks
    some ((bank * ramBankSize + (address.toNat - 0xA000)) % cartridge.ram.size)

/-- The byte a cartridge shows at an address; outside its windows it shows ones. -/
def read (cartridge : Cartridge) (address : UInt16) : UInt8 :=
  if address < 0x4000 then
    byteOr cartridge.rom (cartridge.lowBank * romBankSize + address.toNat) 0xFF
  else if address < 0x8000 then
    byteOr cartridge.rom (cartridge.highBank * romBankSize + (address.toNat - 0x4000)) 0xFF
  else if 0xA000 ≤ address && address < 0xC000 then
    if cartridge.controller.ramEnabled then
      match cartridge.ramIndex? address with
      | some index => byteOr cartridge.ram index 0xFF
      | none => 0xFF
    else 0xFF
  else 0xFF

def setRam (cartridge : Cartridge) (index : Nat) (value : UInt8) : Cartridge :=
  if h : index < cartridge.ram.size then
    { cartridge with ram := cartridge.ram.set index value h }
  else cartridge

/-- A write to a cartridge: below 0x8000 it sets the controller, in the RAM window it stores
the byte while RAM is enabled, and elsewhere it does nothing.
-/
def write (address : UInt16) (value : UInt8) : Act Cartridge Unit := do
  if address < 0x8000 then
    match (← get).controller.write address value with
    | .ok controller => modify ({ · with controller })
    | .error fault => throw fault
  else if 0xA000 ≤ address && address < 0xC000 then
    modify fun cartridge =>
      if cartridge.controller.ramEnabled then
        match cartridge.ramIndex? address with
        | some index => cartridge.setRam index value
        | none => cartridge
      else cartridge

end Cartridge

end Handheld
