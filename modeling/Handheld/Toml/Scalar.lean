import Handheld.Toml.Value

/-! Values without quotes or brackets: booleans, numbers, dates and times. -/

namespace Handheld.Toml

/-- Digits with single underscores between them, without the underscores. -/
def grouped? (isDigit : Char → Bool) : List Char → Option (List Char)
  | [] => none
  | [c] => if isDigit c then some [c] else none
  | c :: '_' :: rest => if isDigit c then (grouped? isDigit rest).map (c :: ·) else none
  | c :: rest => if isDigit c then (grouped? isDigit rest).map (c :: ·) else none

/-- The value of a digit in any base up to sixteen; other characters count as zero. -/
def digitValue (c : Char) : Nat :=
  if c.isDigit then c.toNat - 48 else c.toLower.toNat - 87

def numberOf (base : Nat) (digits : List Char) : Nat :=
  digits.foldl (fun value c => value * base + digitValue c) 0

/-- The sign at the front, and what follows it. -/
def splitSign : List Char → Bool × List Char
  | '-' :: rest => (true, rest)
  | '+' :: rest => (false, rest)
  | text => (false, text)

/-- A decimal whole part: digits without a leading zero, unless it is the only one. -/
def wholePart? (text : List Char) : Option (List Char) :=
  match grouped? Char.isDigit text with
  | some ('0' :: _ :: _) => none
  | digits => digits

/-- A number that fits into 128 bits, signed or not. -/
def boundedInteger? (number : Int) : Option Value :=
  if -(1 <<< 127 : Nat) ≤ number && number < (1 <<< 128 : Nat) then some (.integer number)
  else none

/-- An integer in a base marked by a letter after a zero. -/
def markedInteger? : List Char → Option Value
  | '0' :: 'x' :: rest => do
      let digits ← grouped? (fun c => c.isDigit || ('a' ≤ c.toLower && c.toLower ≤ 'f')) rest
      boundedInteger? (numberOf 16 digits)
  | '0' :: 'o' :: rest => do
      let digits ← grouped? (fun c => '0' ≤ c && c ≤ '7') rest
      boundedInteger? (numberOf 8 digits)
  | '0' :: 'b' :: rest => do
      let digits ← grouped? (fun c => c == '0' || c == '1') rest
      boundedInteger? (numberOf 2 digits)
  | _ => none

/-- The float nearest to `digits * 10 ^ exponent`; none if it is too large. Exponents far out
of range are settled without computing the power.
-/
def decimalFloat? (negative : Bool) (digits : List Char) (exponent : Int) : Option Binary64 :=
  let mantissa := numberOf 10 digits
  let size : Int := exponent + (toString mantissa).length
  if mantissa = 0 || size < -400 then some (.ofRatio negative 0 1)
  else if size > 400 then none
  else
    let float :=
      match exponent with
      | .ofNat up => Binary64.ofRatio negative (mantissa * Nat.pow 10 up) 1
      | .negSucc down => Binary64.ofRatio negative mantissa (Nat.pow 10 (down + 1))
    if float = .infinity negative then none else some float

/-- The fraction after a point, and what follows it. -/
def splitFraction? : List Char → Option (List Char × List Char)
  | '.' :: rest => do
      let digits ← grouped? Char.isDigit (rest.takeWhile fun c => c.isDigit || c == '_')
      some (digits, rest.dropWhile fun c => c.isDigit || c == '_')
  | rest => some ([], rest)

/-- The exponent after its letter, or zero if there is none; nothing may follow. -/
def exponentOf? : List Char → Option Int
  | [] => some 0
  | c :: rest =>
      if c == 'e' || c == 'E' then do
        let (negative, digits) := splitSign rest
        let digits ← grouped? Char.isDigit digits
        let value : Int := numberOf 10 digits
        some (if negative then -value else value)
      else none

/-- A decimal integer or float. -/
def decimal? (text : List Char) : Option Value := do
  let (negative, body) := splitSign text
  let whole ← wholePart? (body.takeWhile fun c => c.isDigit || c == '_')
  match body.dropWhile fun c => c.isDigit || c == '_' with
  | [] =>
      let value : Int := numberOf 10 whole
      boundedInteger? (if negative then -value else value)
  | rest =>
      let (fraction, rest) ← splitFraction? rest
      let exponent ← exponentOf? rest
      let float ← decimalFloat? negative (whole ++ fraction) (exponent - fraction.length)
      some (.float float)

/-- Two digits at the front as a number within bounds, and what follows them. -/
def twoDigits? (low high : Nat) : List Char → Option (Nat × List Char)
  | a :: b :: rest =>
      if a.isDigit && b.isDigit then
        let value := numberOf 10 [a, b]
        if low ≤ value && value ≤ high then some (value, rest) else none
      else none
  | _ => none

/-- What follows a character that has to come first. -/
def after? (expected : Char) : List Char → Option (List Char)
  | c :: rest => if c == expected then some rest else none
  | [] => none

/-- The days of a month in the proleptic Gregorian calendar. -/
def daysInMonth (year month : Nat) : Nat :=
  if month = 2 then
    if year % 4 = 0 && (year % 100 != 0 || year % 400 = 0) then 29 else 28
  else if month = 4 || month = 6 || month = 9 || month = 11 then 30
  else 31

/-- What follows a full date. -/
def afterDate? (text : List Char) : Option (List Char) := do
  let (century, rest) ← twoDigits? 0 99 text
  let (year, rest) ← twoDigits? 0 99 rest
  let (month, rest) ← twoDigits? 1 12 (← after? '-' rest)
  let (_, rest) ←
    twoDigits? 1 (daysInMonth (century * 100 + year) month) (← after? '-' rest)
  some rest

/-- What follows the fraction of a second, if there is one. -/
def afterSubsecond? : List Char → Option (List Char)
  | '.' :: rest =>
      if (rest.takeWhile Char.isDigit).isEmpty then none else some (rest.dropWhile Char.isDigit)
  | rest => some rest

/-- What follows a time of day; its seconds may be left out. -/
def afterTime? (text : List Char) : Option (List Char) := do
  let (_, rest) ← twoDigits? 0 23 text
  let (_, rest) ← twoDigits? 0 59 (← after? ':' rest)
  match rest with
  | ':' :: rest => do
      let (_, rest) ← twoDigits? 0 60 rest
      afterSubsecond? rest
  | rest => some rest

/-- What follows the offset of a time from universal time, if there is one. -/
def afterOffset? : List Char → Option (List Char)
  | [] => some []
  | c :: rest =>
      if c == 'Z' || c == 'z' then some rest
      else if c == '+' || c == '-' then do
        let (_, rest) ← twoDigits? 0 23 rest
        let (_, rest) ← twoDigits? 0 59 (← after? ':' rest)
        some rest
      else some (c :: rest)

/-- Whether a text is a date, a time, or a date and time with or without an offset. -/
def isMoment (text : List Char) : Bool :=
  match afterDate? text with
  | some [] => true
  | some (c :: rest) =>
      (c == 'T' || c == 't' || c == ' ')
        && ((afterTime? rest).bind afterOffset?).any List.isEmpty
  | none => (afterTime? text).any List.isEmpty

/-- A boolean or a special float. -/
def named? (text : String) : Option Value :=
  if text == "true" then some (.boolean true)
  else if text == "false" then some (.boolean false)
  else if text == "inf" || text == "+inf" then some (.float (.infinity false))
  else if text == "-inf" then some (.float (.infinity true))
  else if text == "nan" || text == "+nan" then some (.float (.notANumber false))
  else if text == "-nan" then some (.float (.notANumber true))
  else none

/-- The value written by an unquoted text. -/
def scalar? (text : List Char) : Option Value :=
  if isMoment text then some (.moment (String.ofList text))
  else ((named? (String.ofList text)).or (markedInteger? text)).or (decimal? text)

end Handheld.Toml
