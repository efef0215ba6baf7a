import Handheld.Toml.Reader

/-! The four kinds of strings: basic and literal, on one line or on several. -/

namespace Handheld.Toml

/-- The value of a hexadecimal digit in either case. -/
def hexValue? (c : Char) : Option Nat :=
  if '0' ≤ c && c ≤ '9' then some (c.toNat - 48)
  else if 'a' ≤ c && c ≤ 'f' then some (c.toNat - 87)
  else if 'A' ≤ c && c ≤ 'F' then some (c.toNat - 55)
  else none

namespace Reader

/-- Exactly so many hexadecimal digits, as a number. -/
def hexDigits : (count value : Nat) → Reader Nat
  | 0, value => pure value
  | count + 1, value => do
      match hexValue? (← next) with
      | some digit => hexDigits count (value * 16 + digit)
      | none => failure

/-- The character with a code point, which may not be a surrogate or too large. -/
def scalarValue (code : Nat) : Reader Char :=
  if code < 0xD800 || (0xDFFF < code && code < 0x110000) then pure (Char.ofNat code)
  else failure

/-- The character named after a backslash. -/
def escape : Reader Char := do
  match ← next with
  | 'b' => return '\x08'
  | 't' => return '\t'
  | 'n' => return '\n'
  | 'f' => return '\x0C'
  | 'r' => return '\r'
  | 'e' => return '\x1B'
  | '"' => return '"'
  | '\\' => return '\\'
  | 'x' => scalarValue (← hexDigits 2 0)
  | 'u' => scalarValue (← hexDigits 4 0)
  | 'U' => scalarValue (← hexDigits 8 0)
  | _ => failure

/-- The rest of a basic string on one line, given what was read of it in reverse. -/
def basicBody : (fuel : Nat) → List Char → Reader String
  | 0, _ => failure
  | fuel + 1, read => do
      match ← next with
      | '"' => return String.ofList read.reverse
      | '\\' => basicBody fuel ((← escape) :: read)
      | c => if isForbidden c then failure else basicBody fuel (c :: read)

/-- The rest of a literal string on one line. -/
def literalBody : Reader String := do
  let read ← run fun c => c != '\'' && !isForbidden c
  expect '\''
  return String.ofList read

/-- Blanks and line ends after a backslash at the end of a line, given the characters left. -/
def foldedLines : (fuel : Nat) → Reader Unit
  | 0 => pure ()
  | fuel + 1 => do
      spaces
      if ← lineEnd then foldedLines fuel

/-- The rest of a string over several lines that ends in three of a quote, of which up to two
more belong to the string. Only basic strings know the backslash.
-/
def blockBody (quote : Char) : (fuel : Nat) → List Char → Reader String
  | 0, _ => failure
  | fuel + 1, read => do
      let quotes := (← run (· == quote)).length
      if quotes > 5 then failure
      else if quotes ≥ 3 then
        return String.ofList (read.reverse ++ List.replicate (quotes - 3) quote)
      else
        let read := List.replicate quotes quote ++ read
        match ← get with
        | '\r' :: '\n' :: rest =>
            set rest
            blockBody quote fuel ('\n' :: '\r' :: read)
        | '\n' :: rest =>
            set rest
            blockBody quote fuel ('\n' :: read)
        | '\\' :: rest =>
            set rest
            if quote != '"' then blockBody quote fuel ('\\' :: read)
            else
              let blank := rest.takeWhile isSpace
              match rest.drop blank.length with
              | '\n' :: _ | '\r' :: '\n' :: _ =>
                  foldedLines (← remaining)
                  blockBody quote fuel read
              | _ => blockBody quote fuel ((← escape) :: read)
        | c :: rest =>
            if isForbidden c then failure
            else
              set rest
              blockBody quote fuel (c :: read)
        | [] => failure

/-- A string over several lines, after its opening quotes; a line end right there is dropped.
-/
def block (quote : Char) : Reader String := do
  let _ ← lineEnd
  blockBody quote ((← remaining) + 1) []

/-- A one-line string, after its opening quote. -/
def inlineString (quote : Char) : Reader String := do
  if quote == '"' then basicBody ((← remaining) + 1) [] else literalBody

/-- Any string, after its opening quote. -/
def anyString (quote : Char) : Reader String := do
  if ← sees (String.ofList [quote, quote]) then
    skip 2
    block quote
  else inlineString quote

end Reader

end Handheld.Toml
