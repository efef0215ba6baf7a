import Handheld.Text.Hex

/-! What can go wrong while a cartridge is loaded or run, and the wording of each report. -/

namespace Handheld

/-- A condition that ends the current access or instruction. -/
inductive Fault where
  /-- The byte at `pc` names no instruction. -/
  | undefinedOpcode (opcode : UInt8) (pc : UInt16)
  /-- No register lives at the address. -/
  | unmappedAddress (address : UInt16)
  /-- A real peripheral lives at the address, and it is not modelled. -/
  | unmodelledRegister (address : UInt16)
  /-- The bank controller was asked to map its real-time clock. -/
  | clockSelect (address : UInt16) (value : UInt8)
  deriving DecidableEq, Repr

def Fault.message : Fault → String
  | .undefinedOpcode opcode pc =>
      "unimplemented opcode " ++ Hex.byte opcode ++ " at PC=" ++ Hex.word pc
  | .unmappedAddress address =>
      "access to unmapped address 0x" ++ Hex.word address
  | .unmodelledRegister address =>
      "access to unmodelled I/O register 0x" ++ Hex.word address
  | .clockSelect address value =>
      "unsupported bank controller operation: MBC3 real-time clock register select (write 0x"
        ++ Hex.byte value ++ " to 0x" ++ Hex.word address ++ ")"

/-- A reason to refuse a cartridge image. -/
inductive ImageFault where
  /-- The image ends before its header does. -/
  | tooShort (length : Nat)
  /-- The header declares more bytes than the image holds. -/
  | truncated (declared actual : Nat)
  /-- The header names a board that is not supported. -/
  | unsupportedType (code : UInt8)
  /-- The header's size code has no meaning. -/
  | invalidRomSize (code : UInt8)
  deriving DecidableEq, Repr

/-- The text shown for a refused image. -/
def ImageFault.message : ImageFault → String
  | .tooShort length =>
      "cartridge image is " ++ toString length ++ " bytes, shorter than its header"
  | .truncated declared actual =>
      "header declares " ++ toString declared ++ " bytes of ROM but the image holds "
        ++ toString actual
  | .unsupportedType code => "unsupported cartridge type 0x" ++ Hex.byte code
  | .invalidRomSize code => "invalid ROM size code 0x" ++ Hex.byte code

/-- An action on a state that may end in a fault. The state reached when a fault occurs is
kept, so that what was done before it stays done.
-/
abbrev Act (State : Type) :=
  EStateM Fault State

end Handheld
