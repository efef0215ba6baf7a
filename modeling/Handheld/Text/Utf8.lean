/-! Decoding of UTF-8. Each maximal ill-formed run of bytes is one malformed part, so a lossy
reading shows one replacement character for it and a strict reading fails.
-/

namespace Handheld.Utf8

/-- A character that still lacks bytes. -/
structure Pending where
  /-- Bytes still missing. -/
  remaining : Nat
  /-- The bits gathered so far. -/
  bits : Nat
  /-- The least value the next byte may have. -/
  low : UInt8
  /-- The greatest value the next byte may have. -/
  high : UInt8

/-- What a byte means where a character may begin. -/
inductive Lead where
  | complete (c : Char)
  | opens (pending : Pending)
  | malformed

/-- The role of a leading byte. Ranges for the byte after it exclude overlong forms,
surrogates and values above U+10FFFF.
-/
def lead (byte : UInt8) : Lead :=
  if byte < 0x80 then .complete (Char.ofNat byte.toNat)
  else if byte < 0xC2 then .malformed
  else if byte < 0xE0 then .opens ⟨1, byte.toNat - 0xC0, 0x80, 0xBF⟩
  else if byte < 0xF0 then
    .opens ⟨2, byte.toNat - 0xE0, if byte = 0xE0 then 0xA0 else 0x80,
      if byte = 0xED then 0x9F else 0xBF⟩
  else if byte < 0xF5 then
    .opens ⟨3, byte.toNat - 0xF0, if byte = 0xF0 then 0x90 else 0x80,
      if byte = 0xF4 then 0x8F else 0xBF⟩
  else .malformed

/-- The characters and malformed parts of some bytes, given the character in progress. A
malformed part is shown as `none`.
-/
def parts : Option Pending → List UInt8 → List (Option Char)
  | none, [] => []
  | some _, [] => [none]
  | none, byte :: rest =>
      match lead byte with
      | .complete c => some c :: parts none rest
      | .opens pending => parts (some pending) rest
      | .malformed => none :: parts none rest
  | some pending, byte :: rest =>
      if pending.low ≤ byte && byte ≤ pending.high then
        let bits := pending.bits * 64 + (byte.toNat - 0x80)
        match pending.remaining with
        | 0 | 1 => some (Char.ofNat bits) :: parts none rest
        | remaining + 1 => parts (some ⟨remaining, bits, 0x80, 0xBF⟩) rest
      else
        match lead byte with
        | .complete c => none :: some c :: parts none rest
        | .opens next => none :: parts (some next) rest
        | .malformed => none :: none :: parts none rest

/-- The text of some bytes, with U+FFFD for each malformed part. -/
def decodeLossy (bytes : List UInt8) : List Char :=
  (parts none bytes).map (·.getD '\uFFFD')

/-- The text of some bytes, if no part of them is malformed. -/
def decode? (bytes : List UInt8) : Option (List Char) :=
  (parts none bytes).mapM id

end Handheld.Utf8
