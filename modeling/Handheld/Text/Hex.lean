/-! Hexadecimal text of a fixed width, as used in fault reports and register listings. -/

namespace Handheld.Hex

/-- The upper-case digit for a value below sixteen. -/
def digit (value : Nat) : Char :=
  if value < 10 then Char.ofNat (48 + value) else Char.ofNat (55 + value)

/-- The last `width` hexadecimal digits of a number, most significant first. -/
def digits : Nat → Nat → List Char
  | 0, _ => []
  | width + 1, value => digits width (value / 16) ++ [digit (value % 16)]

/-- Fixed-width text has exactly that many digits, by induction on the width. -/
theorem length_digits (width value : Nat)
    : (digits width value).length = width := by
  induction width generalizing value with
  | zero => rfl
  | succ width ih => simp [digits, ih]

def byte (value : UInt8) : String :=
  String.ofList (digits 2 value.toNat)

def word (value : UInt16) : String :=
  String.ofList (digits 4 value.toNat)

end Handheld.Hex
