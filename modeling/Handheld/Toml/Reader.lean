/-! Reading from the front of a text, with the layout rules of TOML: blanks, line ends and
comments.
-/

namespace Handheld.Toml

/-- A reader takes what it can use from the front of a text, or fails. -/
abbrev Reader :=
  StateT (List Char) Option

namespace Reader

/-- The next character, which stays. -/
def peek? : Reader (Option Char) := do
  return (← get).head?

/-- Whether the text goes on with some characters, which stay. -/
def sees (expected : String) : Reader Bool := do
  return expected.toList.isPrefixOf (← get)

/-- The next character, which is taken. -/
def next : Reader Char := fun text =>
  match text with
  | [] => none
  | c :: rest => some (c, rest)

/-- Some characters to be dropped. -/
def skip (count : Nat) : Reader Unit :=
  modify (·.drop count)

/-- A character that has to come next. -/
def expect (expected : Char) : Reader Unit := do
  if (← next) != expected then failure

/-- A character that may come next, and whether it did. -/
def accept (expected : Char) : Reader Bool := do
  if (← peek?) == some expected then
    skip 1
    return true
  return false

/-- The longest run of characters of a class. -/
def run (class? : Char → Bool) : Reader (List Char) := do
  let text ← get
  set (text.dropWhile class?)
  return text.takeWhile class?

def atEnd : Reader Bool := do
  return (← get).isEmpty

end Reader

/-- The two blanks within a line. -/
def isSpace (c : Char) : Bool :=
  c == ' ' || c == '\t'

/-- A control character that may stand in no comment or one-line string. -/
def isForbidden (c : Char) : Bool :=
  (c.toNat < 0x20 && c != '\t') || c.toNat == 0x7F

namespace Reader

/-- Blanks within a line, dropped. -/
def spaces : Reader Unit := do
  let _ ← run isSpace

/-- A line end, if there is one, and whether there was. A carriage return stands only before
a line feed.
-/
def lineEnd : Reader Bool := do
  match ← get with
  | '\n' :: rest => set rest; return true
  | '\r' :: '\n' :: rest => set rest; return true
  | '\r' :: _ => failure
  | _ => return false

/-- A comment up to the end of its line, if one begins here. -/
def comment : Reader Unit := do
  if ← accept '#' then
    let _ ← run fun c => !isForbidden c

/-- What may follow an expression on its line, and the end of the line or text. -/
def endOfLine : Reader Unit := do
  spaces
  comment
  if !(← lineEnd) && !(← atEnd) then failure

/-- Blanks, comments and line ends between the parts of a bracketed value, as far as the
given number of lines.
-/
def layout : (lines : Nat) → Reader Unit
  | 0 => spaces
  | lines + 1 => do
      spaces
      comment
      if ← lineEnd then layout lines

def remaining : Reader Nat := do
  return (← get).length

/-- Everything that may stand between the parts of a bracketed value. -/
def gap : Reader Unit := do
  layout (← remaining)

end Reader

end Handheld.Toml
