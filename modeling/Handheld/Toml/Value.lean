import Handheld.Binary64

/-! Values of a TOML document. A table remembers how it came about, since that decides
whether later lines may add to it.
-/

namespace Handheld.Toml

/-- How a table came about. -/
inductive TableOrigin where
  /-- Written out between braces; nothing may be added. -/
  | closed
  /-- Named only on the way to a deeper header. -/
  | implied
  /-- Named on the way to the last part of a dotted key. -/
  | dotted
  /-- Opened by a header of its own. -/
  | opened
  deriving DecidableEq, Repr

/-- A value. -/
inductive Value where
  | string (text : String)
  | integer (number : Int)
  | float (number : Binary64)
  | boolean (flag : Bool)
  /-- A date, a time or both, as written. -/
  | moment (text : String)
  /-- An array; one that grows consists of tables opened by headers. -/
  | array (grows : Bool) (elements : List Value)
  | table (origin : TableOrigin) (entries : List (String × Value))
  deriving Inhabited

/-- The entries of a table, in order of appearance. -/
abbrev Entries :=
  List (String × Value)

namespace Entries

def get? (entries : Entries) (key : String) : Option Value :=
  (entries.find? (·.1 == key)).map (·.2)

/-- The entries with the value of a key replaced, or added at the end. -/
def put (key : String) (value : Value) : Entries → Entries
  | [] => [(key, value)]
  | (name, old) :: rest =>
      if name == key then (name, value) :: rest else (name, old) :: put key value rest

/-- The entries with a new key added; an existing key is refused. -/
def add? (entries : Entries) (key : String) (value : Value) : Option Entries :=
  if (entries.get? key).isSome then none else some (entries.put key value)

/-- A value put under a key is found there. -/
@[simp]
theorem get?_put_self (entries : Entries) (key : String) (value : Value)
    : (entries.put key value).get? key = some value := by
  induction entries with
  | nil => simp [put, get?]
  | cons entry rest ih =>
      by_cases h : entry.1 = key
      · simp [put, get?, h]
      · simpa [put, get?, h] using ih

end Entries

/-- The last element of a list, with a change that may fail applied to it. -/
def modifyLast? {α : Type} (change : α → Option α) : List α → Option (List α)
  | [] => none
  | [last] => (change last).map ([·])
  | first :: rest => (modifyLast? change rest).map (first :: ·)

/-- A change of the table that a path leads to, creating the tables on the way. A path of a
header ends in the newest element of a growing array and passes through dotted tables. A
dotted key may not pass through a table opened by a header. The change learns how the table
came about.
-/
def Entries.modifyAt? (byKey : Bool) (change : TableOrigin → Entries → Option Entries)
    : (path : List String) → TableOrigin → Entries → Option Entries
  | [], origin, entries => change origin entries
  | key :: rest, _, entries =>
      match entries.get? key with
      | none => do
          let origin := if byKey then .dotted else .implied
          let inner ← modifyAt? byKey change rest origin []
          some (entries.put key (.table origin inner))
      | some (.table .closed _) => none
      | some (.table .opened inner) =>
          if byKey then none
          else do
            let inner ← modifyAt? byKey change rest .opened inner
            some (entries.put key (.table .opened inner))
      | some (.table origin inner) => do
          let inner ← modifyAt? byKey change rest origin inner
          some (entries.put key (.table origin inner))
      | some (.array true elements) => do
          let enter : Value → Option Value
            | .table origin inner =>
                (modifyAt? byKey change rest origin inner).map (.table origin)
            | _ => none
          let elements ← modifyLast? enter elements
          some (entries.put key (.array true elements))
      | some _ => none

/-- The entries with a value under a possibly dotted key. A plain key goes into a table that
was not made by dotted keys, and the last part of a dotted key into one that was.
-/
def Entries.insert? (entries : Entries) (origin : TableOrigin) (path : List String)
    (key : String) (value : Value) : Option Entries :=
  let place (target : TableOrigin) (found : Entries) : Option Entries :=
    if (target == .dotted) == path.isEmpty then none else found.add? key value
  entries.modifyAt? true place path origin

/-- The entries after a header that opens a table. Only a table that was merely implied may
already exist.
-/
def Entries.openTable? (entries : Entries) (path : List String) (key : String)
    : Option Entries :=
  let start (_ : TableOrigin) (found : Entries) : Option Entries :=
    match found.get? key with
    | none => some (found.put key (.table .opened []))
    | some (.table .implied inner) => some (found.put key (.table .opened inner))
    | some _ => none
  entries.modifyAt? false start path .opened

/-- The entries after a header that adds an element to an array of tables. -/
def Entries.openElement? (entries : Entries) (path : List String) (key : String)
    : Option Entries :=
  let start (_ : TableOrigin) (found : Entries) : Option Entries :=
    match found.get? key with
    | none => some (found.put key (.array true [.table .opened []]))
    | some (.array true elements) =>
        some (found.put key (.array true (elements ++ [.table .opened []])))
    | some _ => none
  entries.modifyAt? false start path .opened

end Handheld.Toml
