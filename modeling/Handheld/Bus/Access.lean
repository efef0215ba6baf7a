import Handheld.Bus.Basic

/-! Reading and writing through the bus. Looking at an address changes nothing; a read
proper also notes an unmodelled register that it reached.
-/

namespace Handheld.Bus

/-- The byte of the cartridge at an address; without a cartridge all bits read as ones. -/
def peekCartridge (bus : Bus) (address : UInt16) : UInt8 :=
  match bus.cartridge with
  | some cartridge => cartridge.read address
  | none => 0xFF

/-- The byte in the ROM windows: start-up code covers the first page while it is mapped. -/
def peekRom (bus : Bus) (address : UInt16) : UInt8 :=
  if bus.boot.mapped && address < 0x100 then
    match bus.boot.code with
    | some code => byteOr code address.toNat 0xFF
    | none => bus.peekCartridge address
  else bus.peekCartridge address

/-- The fault that a strict bus reports for an unmodelled register. -/
def unmodelled (address : UInt16) : Fault :=
  if Location.isPeripheral address then .unmodelledRegister address
  else .unmappedAddress address

/-- The byte of an unmodelled register under the policy of the bus. -/
def peekUnmodelled (bus : Bus) (address : UInt16) : Except Fault UInt8 :=
  match bus.policy with
  | .strict => .error (unmodelled address)
  | .bestEffort => .ok 0xFF

/-- The byte that a read of an address gives. -/
def peek (bus : Bus) (address : UInt16) : Except Fault UInt8 :=
  match Location.ofAddress address with
  | .rom => .ok (bus.peekRom address)
  | .vram cell => .ok (bus.video.vram.get cell)
  | .cartridgeRam => .ok (bus.peekCartridge address)
  | .wram cell => .ok (bus.wram.get cell)
  | .oam cell => .ok (bus.video.oam.get cell)
  | .gap => .ok 0
  | .joypad => .ok bus.joypad.read
  | .timer register => .ok (bus.timer.read register)
  | .requests => .ok (bus.requests ||| 0xE0)
  | .video register => .ok (bus.video.read register)
  | .bootSwitch => .ok 0xFF
  | .peripheral | .unmapped => bus.peekUnmodelled address
  | .hram cell => .ok (bus.hram.get cell)
  | .enables => .ok bus.enables

/-- The bus with an address of the register page noted as accessed, unless the bus is strict.
-/
def note (bus : Bus) (address : UInt16) : Bus :=
  match bus.policy with
  | .strict => bus
  | .bestEffort => { bus with noted := bus.noted.setIfInBounds (address.toNat % 0x80) true }

def isUnmodelled (address : UInt16) : Bool :=
  match Location.ofAddress address with
  | .peripheral | .unmapped => true
  | _ => false

def read (address : UInt16) : Act Bus UInt8 := fun bus =>
  match bus.peek address with
  | .ok value => .ok value (if isUnmodelled address then bus.note address else bus)
  | .error fault => .error fault bus

/-- Reading some bytes at successive addresses, wrapping past the last. -/
def readRun : (count : Nat) → UInt16 → Act Bus (List UInt8)
  | 0, _ => pure []
  | count + 1, address => do
      let value ← read address
      let rest ← readRun count (address + 1)
      pure (value :: rest)

/-- Reading the bytes of a page that a transfer to object memory copies. -/
def readPage (page : UInt8) : Act Bus (Memory 0xA0) := do
  let values := (← readRun 0xA0 (page.toUInt16 <<< 8)).toArray
  pure (.ofFn fun cell => values.getD cell.val 0)

/-- A write to the cartridge, if there is one. The cartridge is out of the bus meanwhile. -/
def writeCartridge (address : UInt16) (value : UInt8) : Act Bus Unit := fun bus =>
  match bus.cartridge with
  | none => .ok () bus
  | some cartridge =>
      let rest := bus.eject
      match Cartridge.write address value cartridge with
      | .ok _ cartridge => .ok () (rest.insert cartridge)
      | .error fault cartridge => .error fault (rest.insert cartridge)

def modifyVideo (change : Video → Video) : Act Bus Unit :=
  modify fun bus => { bus with video := change bus.video }

/-- A write to an unmodelled register under the policy of the bus. -/
def writeUnmodelled (address : UInt16) : Act Bus Unit := fun bus =>
  match bus.policy with
  | .strict => .error (unmodelled address) bus
  | .bestEffort => .ok () (bus.note address)

/-- The start of a transfer to object memory: the page register is set, the page is read
through the bus, and only then is object memory replaced.
-/
def transferObjects (page : UInt8) : Act Bus Unit := do
  modifyVideo (·.write .transferPage page)
  let objects ← readPage page
  modifyVideo (·.replaceObjects objects)

/-- Writing a byte to what stands at an address. -/
def writeLocation (address : UInt16) (value : UInt8) : Location → Act Bus Unit
  | .rom | .cartridgeRam => writeCartridge address value
  | .vram cell => modifyVideo fun video => { video with vram := video.vram.set cell value }
  | .wram cell => modify fun bus => { bus with wram := bus.wram.set cell value }
  | .oam cell => modifyVideo fun video => { video with oam := video.oam.set cell value }
  | .gap => pure ()
  | .joypad => modify fun bus => { bus with joypad := bus.joypad.write value }
  | .timer register => modify fun bus => { bus with timer := bus.timer.write register value }
  | .requests => modify fun bus => { bus with requests := value &&& 0x1F }
  | .video .transferPage => transferObjects value
  | .video register => modifyVideo (·.write register value)
  | .bootSwitch => if value = 0 then pure () else modify unmapBoot
  | .peripheral | .unmapped => writeUnmodelled address
  | .hram cell => modify fun bus => { bus with hram := bus.hram.set cell value }
  | .enables => modify fun bus => { bus with enables := value }

def write (address : UInt16) (value : UInt8) : Act Bus Unit :=
  writeLocation address value (.ofAddress address)

/-- Reading two bytes, low byte first. -/
def readWord (address : UInt16) : Act Bus UInt16 := do
  let low ← read address
  let high ← read (address + 1)
  pure (high.toUInt16 <<< 8 ||| low.toUInt16)

/-- Writing two bytes, low byte first. -/
def writeWord (address : UInt16) (value : UInt16) : Act Bus Unit := do
  write address value.toUInt8
  write (address + 1) (value >>> 8).toUInt8

end Handheld.Bus
