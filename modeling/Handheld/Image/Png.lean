import Handheld.Image.Checksum
import Handheld.Screen

/-! Pictures as PNG files, with eight bits for each of red, green, blue and opacity. The data
is stored without compression.
-/

namespace Handheld.Png

/-- Four bytes, most significant first. -/
def bigEndian (value : UInt32) : ByteArray :=
  ⟨#[(value >>> 24).toUInt8, (value >>> 16).toUInt8, (value >>> 8).toUInt8, value.toUInt8]⟩

/-- Two bytes, least significant first. -/
def littleEndian (value : UInt16) : ByteArray :=
  ⟨#[value.toUInt8, (value >>> 8).toUInt8]⟩

/-- The eight bytes at the start of every file. -/
def signature : ByteArray :=
  ⟨#[0x89, 0x50, 0x4E, 0x47, 0x0D, 0x0A, 0x1A, 0x0A]⟩

/-- A chunk: its length, name and contents, and the check of the last two. -/
def chunk (name : String) (contents : ByteArray) : ByteArray :=
  let body := name.toUTF8 ++ contents
  bigEndian (UInt32.ofNat contents.size) ++ body ++ bigEndian (Checksum.crc body)

/-- The chunk that gives size and kind of the picture. -/
def headerChunk : ByteArray :=
  chunk "IHDR"
    (bigEndian (UInt32.ofNat screenWidth) ++ bigEndian (UInt32.ofNat screenHeight)
      ++ ⟨#[8, 6, 0, 0, 0]⟩)

/-- Bytes in a stored block at most. -/
def blockSize : Nat :=
  0xFFFF

/-- Bytes from a position on as stored blocks, at most so many; the last is marked. -/
def storedBlocks (bytes : ByteArray) : (blocks start : Nat) → ByteArray
  | 0, _ => .empty
  | blocks + 1, start =>
      let part := bytes.extract start (start + blockSize)
      let length := UInt16.ofNat part.size
      let last : UInt8 := if blocks = 0 then 1 else 0
      ⟨#[last]⟩ ++ littleEndian length ++ littleEndian (~~~length) ++ part
        ++ storedBlocks bytes blocks (start + blockSize)

/-- Bytes as a stream without compression. -/
def stored (bytes : ByteArray) : ByteArray :=
  ⟨#[0x78, 0x01]⟩ ++ storedBlocks bytes (bytes.size / blockSize + 1) 0
    ++ bigEndian (Checksum.adler bytes)

/-- The rows of a picture, each after the mark that it is unfiltered. -/
def scanlines (picture : Picture) : ByteArray :=
  picture.foldl
    (fun out row =>
      row.foldl (fun out pixel => pixel.components.foldl .push out) (out.push 0)) .empty

def encode (picture : Picture) : ByteArray :=
  signature ++ headerChunk ++ chunk "IDAT" (stored (scanlines picture)) ++ chunk "IEND" .empty

end Handheld.Png
