import Handheld.Cartridge.Controller
import Handheld.Memory
import Handheld.Text.Blank
import Handheld.Text.Utf8

/-! The header of a cartridge image: its title, board type and declared sizes. -/

namespace Handheld

/-- What the header of an image declares. -/
structure Header where
  title : String
  typeCode : UInt8
  kind : ControllerKind
  /-- Declared ROM bytes. -/
  romSize : Nat
  /-- External RAM bytes. -/
  ramSize : Nat
  deriving DecidableEq, Repr

namespace Header

/-- The least length of an image that holds a whole header. -/
def headerEnd : Nat :=
  0x150

/-- The title field up to its first zero, without white space around it. -/
def titleOf (image : ByteArray) : String :=
  let field := (image.extract 0x134 0x143).toList
  String.ofList (Blank.trim (Utf8.decodeLossy (field.takeWhile (· != 0))))

/-- The controller family of a board type. -/
def kindOf? (code : UInt8) : Option ControllerKind :=
  if code = 0x00 || code = 0x08 || code = 0x09 then some .fixed
  else if 0x01 ≤ code && code ≤ 0x03 then some .mbc1
  else if 0x0F ≤ code && code ≤ 0x13 then some .mbc3
  else if 0x19 ≤ code && code ≤ 0x1E then some .mbc5
  else none

/-- The ROM bytes of a size code. -/
def romSizeOf? (code : UInt8) : Option Nat :=
  if code ≤ 0x08 then some (0x8000 <<< code.toNat) else none

/-- The external RAM bytes of a size code; unknown codes mean none. -/
def ramSizeOf (code : UInt8) : Nat :=
  match code.toNat with
  | 1 => 0x800
  | 2 => 0x2000
  | 3 => 0x8000
  | 4 => 0x20000
  | 5 => 0x10000
  | _ => 0

/-- The header of an image. The length is checked first, then the size code, the declared
size and the board type.
-/
def ofImage (image : ByteArray) : Except ImageFault Header :=
  if image.size < headerEnd then .error (.tooShort image.size)
  else
    let sizeCode := byteOr image 0x148 0
    match romSizeOf? sizeCode with
    | none => .error (.invalidRomSize sizeCode)
    | some romSize =>
        if image.size < romSize then .error (.truncated romSize image.size)
        else
          let typeCode := byteOr image 0x147 0
          match kindOf? typeCode with
          | none => .error (.unsupportedType typeCode)
          | some kind =>
              .ok { title := titleOf image, typeCode, kind, romSize,
                    ramSize := ramSizeOf (byteOr image 0x149 0) }

end Header

end Handheld
