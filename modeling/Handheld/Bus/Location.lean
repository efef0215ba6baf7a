import Handheld.Timer
import Handheld.Video.Register

/-! The memory map: what each of the 65536 addresses stands for. -/

namespace Handheld

/-- What an address stands for. -/
inductive Location where
  /-- A ROM window of the cartridge, overlaid at its start while start-up code is mapped. -/
  | rom
  | vram (cell : Fin 0x2000)
  /-- The external RAM window of the cartridge. -/
  | cartridgeRam
  /-- Work RAM, directly or through its echo. -/
  | wram (cell : Fin 0x2000)
  | oam (cell : Fin 0xA0)
  /-- The gap after object memory, which reads as zero and ignores writes. -/
  | gap
  | joypad
  | timer (register : Timer.Register)
  /-- The interrupt requests. -/
  | requests
  | video (register : Video.Register)
  /-- The switch that removes the start-up code. -/
  | bootSwitch
  /-- A serial or sound register, which is not modelled. -/
  | peripheral
  /-- An address of the register page at which nothing lives. -/
  | unmapped
  | hram (cell : Fin 0x7F)
  /-- The interrupt enables. -/
  | enables
  deriving DecidableEq, Repr

namespace Location

/-- Whether a serial or sound register lives at an address. -/
def isPeripheral (address : UInt16) : Bool :=
  address = 0xFF01 || address = 0xFF02 || (0xFF10 ≤ address && address ≤ 0xFF3F)

/-- What stands at an address of the register page, 0xFF00 to 0xFF7F. -/
def ofRegister (address : UInt16) : Location :=
  match Timer.Register.at? address, Video.Register.at? address with
  | some register, _ => .timer register
  | none, some register => .video register
  | none, none =>
      if address = 0xFF00 then .joypad
      else if address = 0xFF0F then .requests
      else if address = 0xFF50 then .bootSwitch
      else if isPeripheral address then .peripheral
      else .unmapped

/-- What stands at an address. -/
def ofAddress (address : UInt16) : Location :=
  let a := address.toNat
  if a < 0x8000 then .rom
  else if h : a < 0xA000 then .vram ⟨a - 0x8000, by omega⟩
  else if a < 0xC000 then .cartridgeRam
  else if h : a < 0xE000 then .wram ⟨a - 0xC000, by omega⟩
  else if h : a < 0xFE00 then .wram ⟨a - 0xE000, by omega⟩
  else if h : a < 0xFEA0 then .oam ⟨a - 0xFE00, by omega⟩
  else if a < 0xFF00 then .gap
  else if a < 0xFF80 then ofRegister address
  else if h : a < 0xFFFF then .hram ⟨a - 0xFF80, by omega⟩
  else .enables

end Location

end Handheld
