/-! Binary floating-point numbers of 64 bits as exact values: taking them apart, and rounding
an exact ratio to the nearest of them.
-/

namespace Handheld

/-- The nearest whole number to a ratio; a tie goes to the even one. -/
def roundHalfEven (numerator denominator : Nat) : Nat :=
  let quotient := numerator / denominator
  let twice := numerator % denominator * 2
  if twice > denominator || (twice == denominator && quotient % 2 == 1) then quotient + 1
  else quotient

/-- A number given by its 64 bits. -/
structure Binary64 where
  bits : UInt64
  deriving DecidableEq, Repr

namespace Binary64

/-- What the bits of a number mean, its sign aside. -/
inductive Magnitude where
  /-- The value `mantissa * 2 ^ exponent`. -/
  | finite (mantissa : Nat) (exponent : Int)
  | infinite
  | nan
  deriving DecidableEq, Repr

def isNegative (number : Binary64) : Bool :=
  number.bits.toNat ≥ 1 <<< 63

def magnitude (number : Binary64) : Magnitude :=
  let field : Nat := number.bits.toNat >>> 52 % 0x800
  let fraction : Nat := number.bits.toNat % 1 <<< 52
  if field = 0x7FF then if fraction = 0 then .infinite else .nan
  else if field = 0 then .finite fraction (-1074)
  else .finite (1 <<< 52 + fraction) ((field : Int) - 1075)

/-- A number with a sign and the bits of its magnitude. -/
def ofParts (negative : Bool) (magnitudeBits : Nat) : Binary64 :=
  ⟨UInt64.ofNat (if negative then 1 <<< 63 + magnitudeBits else magnitudeBits)⟩

def infiniteBits : Nat :=
  0x7FF <<< 52

def infinity (negative : Bool) : Binary64 :=
  ofParts negative infiniteBits

/-- The quiet not-a-number with a sign. -/
def notANumber (negative : Bool) : Binary64 :=
  ofParts negative (infiniteBits + 1 <<< 51)

/-- A ratio times a power of two, as a ratio. -/
def scaled (numerator denominator : Nat) (exponent : Int) : Nat × Nat :=
  match exponent with
  | .ofNat up => (numerator <<< up, denominator)
  | .negSucc down => (numerator, denominator <<< (down + 1))

/-- The exponent of the least power of two above which a positive ratio lies. -/
def ratioLog (numerator denominator : Nat) : Int :=
  let guess : Int := numerator.log2 - denominator.log2
  let (low, high) := scaled numerator denominator (-guess)
  if low < high then guess - 1 else guess

/-- The number nearest to a ratio, ties going to the even mantissa. What is too large becomes
infinite.
-/
def ofRatio (negative : Bool) (numerator denominator : Nat) : Binary64 :=
  if numerator = 0 then ofParts negative 0
  else
    let exponent := max (ratioLog numerator denominator - 52) (-1074)
    let (low, high) := scaled numerator denominator (-exponent)
    let magnitudeBits := (exponent + 1074).toNat <<< 52 + roundHalfEven low high
    ofParts negative (min magnitudeBits infiniteBits)

/-- Whether a number is greater than zero; not-a-number is not. -/
def isPositive (number : Binary64) : Bool :=
  match number.magnitude with
  | .finite mantissa _ => !number.isNegative && mantissa != 0
  | .infinite => !number.isNegative
  | .nan => false

/-- One divided by a positive number, rounded. -/
def reciprocal (number : Binary64) : Binary64 :=
  match number.magnitude with
  | .finite mantissa exponent =>
      let (numerator, denominator) := scaled 1 mantissa (-exponent)
      ofRatio number.isNegative numerator denominator
  | .infinite => ofParts number.isNegative 0
  | .nan => number

end Binary64

end Handheld
