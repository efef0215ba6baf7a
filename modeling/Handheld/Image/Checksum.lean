/-! The two checksums of image files: the cyclic redundancy check of chunks and the Adler sum
of compressed data.
-/

namespace Handheld.Checksum

/-- One bit of a cyclic redundancy check. -/
def crcBit (crc : UInt32) : UInt32 :=
  if crc &&& 1 = 1 then (crc >>> 1) ^^^ 0xEDB88320 else crc >>> 1

/-- A cyclic redundancy check after so many bits. -/
def crcBits : Nat → UInt32 → UInt32
  | 0, crc => crc
  | bits + 1, crc => crcBits bits (crcBit crc)

/-- The effect of each value of the low byte. -/
def crcTable : Array UInt32 :=
  Array.ofFn fun byte : Fin 256 => crcBits 8 (UInt32.ofNat byte.val)

def crcByte (crc : UInt32) (byte : UInt8) : UInt32 :=
  let index := (crc ^^^ byte.toUInt32) &&& 0xFF
  crcTable.getD index.toNat 0 ^^^ (crc >>> 8)

def crc (bytes : ByteArray) : UInt32 :=
  bytes.foldl crcByte 0xFFFFFFFF ^^^ 0xFFFFFFFF

def adlerModulus : UInt32 :=
  65521

/-- The Adler sum of some bytes: the sum of the bytes and the sum of all its partial sums. -/
def adler (bytes : ByteArray) : UInt32 :=
  let (low, high) :=
    bytes.foldl
      (fun (low, high) byte =>
        let low := (low + byte.toUInt32) % adlerModulus
        (low, (high + low) % adlerModulus))
      ((1, 0) : UInt32 × UInt32)
  high <<< 16 ||| low

end Handheld.Checksum
