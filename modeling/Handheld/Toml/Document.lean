import Handheld.Toml.Scalar
import Handheld.Toml.Text

/-! Reading a whole TOML document. Lines set keys, open tables and add elements to arrays of
tables; a document in which any line is malformed or repeats a definition is refused.
-/

namespace Handheld.Toml

/-- How deeply arrays and inline tables may nest. -/
def nestingLimit : Nat :=
  80

/-- A character of a bare key. -/
def isBareKey (c : Char) : Bool :=
  c.isAlphanum || c == '-' || c == '_'

/-- A character of an unquoted value. -/
def isScalarChar (c : Char) : Bool :=
  isBareKey c || c == '+' || c == '.' || c == ':'

namespace Reader

def keyPart : Reader String := do
  match ← peek? with
  | some '"' => skip 1; inlineString '"'
  | some '\'' => skip 1; inlineString '\''
  | _ =>
      let bare ← run isBareKey
      if bare.isEmpty then failure else return String.ofList bare

/-- The parts of a key after its first, given the characters left. The last part comes
second.
-/
def keyRest : (fuel : Nat) → List String → String → Reader (List String × String)
  | 0, path, key => pure (path, key)
  | fuel + 1, path, key => do
      spaces
      if ← accept '.' then
        spaces
        keyRest fuel (path ++ [key]) (← keyPart)
      else return (path, key)

/-- A possibly dotted key: the way to it, and its last part. -/
def key : Reader (List String × String) := do
  let first ← keyPart
  keyRest (← remaining) [] first

/-- An unquoted value. A date may be joined to a time by one blank. -/
def scalar : Reader Value := do
  let text ← run isScalarChar
  let text ←
    match ← get with
    | ' ' :: c :: _ =>
        if afterDate? text == some [] && c.isDigit then do
          skip 1
          pure (text ++ ' ' :: (← run isScalarChar))
        else pure text
    | _ => pure text
  match scalar? text with
  | some value => return value
  | none => failure

/-- The elements of an array after its opening bracket, read so far in reverse. -/
def elements (value : Reader Value) : (fuel : Nat) → List Value → Reader Value
  | 0, _ => failure
  | fuel + 1, found => do
      gap
      if ← accept ']' then return .array false found.reverse
      else
        let element ← value
        gap
        if ← accept ',' then elements value fuel (element :: found)
        else
          expect ']'
          return .array false (element :: found).reverse

/-- A key, the sign after it and its value. -/
def assignment (value : Reader Value) : Reader (List String × String × Value) := do
  let (path, name) ← key
  spaces
  expect '='
  spaces
  return (path, name, ← value)

/-- The entries of an inline table after its opening brace. -/
def members (value : Reader Value) : (fuel : Nat) → Entries → Reader Value
  | 0, _ => failure
  | fuel + 1, found => do
      gap
      if ← accept '}' then return .table .closed found
      else
        let (path, name, item) ← assignment value
        match found.insert? .opened path name item with
        | none => failure
        | some found =>
            gap
            if ← accept ',' then members value fuel found
            else
              expect '}'
              return .table .closed found

/-- A value in which brackets nest at most so deeply. -/
def value : (depth : Nat) → Reader Value
  | 0 => failure
  | depth + 1 => do
      match ← peek? with
      | some '"' => skip 1; return .string (← anyString '"')
      | some '\'' => skip 1; return .string (← anyString '\'')
      | some '[' => skip 1; elements (value depth) ((← remaining) + 1) []
      | some '{' => skip 1; members (value depth) ((← remaining) + 1) []
      | _ => scalar

end Reader

/-- A document as far as it has been read. -/
structure Document where
  root : Entries
  /-- The way to the table that lines now add to. -/
  current : List String

namespace Document

/-- The document with a key set in its current table. -/
def set? (document : Document) (path : List String) (key : String) (value : Value)
    : Option Document := do
  let place (origin : TableOrigin) (found : Entries) : Option Entries :=
    found.insert? origin path key value
  let root ← document.root.modifyAt? false place document.current .opened
  some { document with root }

/-- The document after a header, which opens a table or adds an element to an array. -/
def open? (document : Document) (element : Bool) (path : List String) (key : String)
    : Option Document := do
  let root ←
    if element then document.root.openElement? path key else document.root.openTable? path key
  some { root, current := path ++ [key] }

/-- An optional outcome as the outcome of a reader. -/
def orFail (document : Option Document) : Reader Document := fun text =>
  document.map (·, text)

/-- A header and the end of its line. -/
def header (document : Document) : Reader Document := do
  Reader.expect '['
  let element ← Reader.accept '['
  Reader.spaces
  let (path, key) ← Reader.key
  Reader.spaces
  Reader.expect ']'
  if element then Reader.expect ']'
  Reader.endOfLine
  orFail (document.open? element path key)

/-- A key set to a value and the end of its line. -/
def line (document : Document) : Reader Document := do
  let (path, key, value) ← Reader.assignment (Reader.value (nestingLimit + 1))
  Reader.endOfLine
  orFail (document.set? path key value)

/-- All lines of a document, at most so many. -/
def lines : (fuel : Nat) → Document → Reader Document
  | 0, document => pure document
  | fuel + 1, document => do
      Reader.spaces
      match ← Reader.peek? with
      | none => return document
      | some '[' => lines fuel (← header document)
      | some '#' | some '\n' | some '\r' => Reader.endOfLine; lines fuel document
      | some _ => lines fuel (← line document)

/-- The entries of the document that a text holds. A byte order mark in front is ignored. -/
def entriesOf? (text : List Char) : Option Entries :=
  let text := if text.head? == some '\uFEFF' then text.tail else text
  (lines (text.length + 1) { root := [], current := [] } text).map (·.1.root)

end Document

end Handheld.Toml
