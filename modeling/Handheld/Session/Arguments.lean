/-! The command line: one cartridge file and options in any order. -/

namespace Handheld

/-- What the command line asks for. -/
structure Arguments where
  /-- The cartridge file. -/
  rom : String
  config : Option String
  bootCode : Option String
  frames : Option Nat
  dumpFrame : Option String
  strict : Bool
  unthrottled : Bool
  debug : Bool
  deriving DecidableEq, Repr

namespace Arguments

/-- The options that take a value. -/
inductive ValueOption where
  | config
  | bootCode
  | frames
  | dumpFrame
  deriving DecidableEq, Repr

/-- The options that are switches. -/
inductive Switch where
  | strict
  | unthrottled
  | debug
  deriving DecidableEq, Repr

/-- An option as written on the command line. -/
inductive Spelling where
  | takesValue (option : ValueOption)
  | switch (option : Switch)

def optionNamed? (name : String) : Option Spelling :=
  if name == "--config" then some (.takesValue .config)
  else if name == "--boot-rom" then some (.takesValue .bootCode)
  else if name == "--frames" then some (.takesValue .frames)
  else if name == "--dump-frame" then some (.takesValue .dumpFrame)
  else if name == "--strict-io" then some (.switch .strict)
  else if name == "--unthrottled" then some (.switch .unthrottled)
  else if name == "--debug" then some (.switch .debug)
  else none

/-- The parts of a command line, in order. -/
inductive Part where
  | positional (text : String)
  | value (option : ValueOption) (text : String)
  | switch (option : Switch)
  deriving DecidableEq, Repr

/-- Whether an argument looks like an option; a single dash does not. -/
def looksLikeOption (argument : String) : Bool :=
  argument.startsWith "-" && argument.length > 1

/-- The name of an option and the value joined to it by a sign of equality, if any. -/
def splitJoined (argument : String) : String × Option String :=
  let text := argument.toList
  let name := String.ofList (text.takeWhile (· != '='))
  match text.dropWhile (· != '=') with
  | _ :: value => (name, some (String.ofList value))
  | [] => (name, none)

/-- The parts of a command line. A value may follow its option as the next argument, unless
that looks like an option itself. After two dashes everything is positional.
-/
def parts? : List String → Option (List Part)
  | [] => some []
  | argument :: rest =>
      if argument == "--" then some (rest.map .positional)
      else if !looksLikeOption argument then (parts? rest).map (.positional argument :: ·)
      else
        match splitJoined argument with
        | (name, joined) =>
            match optionNamed? name, joined, rest with
            | some (.switch option), none, rest => (parts? rest).map (.switch option :: ·)
            | some (.takesValue option), some value, rest =>
                (parts? rest).map (.value option value :: ·)
            | some (.takesValue option), none, value :: rest =>
                if looksLikeOption value then none
                else (parts? rest).map (.value option value :: ·)
            | _, _, _ => none

/-- A list's only element; none for an empty list, and a failure for a longer one. -/
def atMostOne? {α : Type} : List α → Option (Option α)
  | [] => some none
  | [element] => some (some element)
  | _ => none

def valuesOf (option : ValueOption) (parts : List Part) : List String :=
  parts.filterMap fun
    | .value given text => if given = option then some text else none
    | _ => none

/-- The path given to an option, which may not be given twice or be empty. -/
def path? (option : ValueOption) (parts : List Part) : Option (Option String) := do
  let path ← atMostOne? (valuesOf option parts)
  if path == some "" then none else some path

/-- Whether a switch is given, which may not happen twice. -/
def switch? (option : Switch) (parts : List Part) : Option Bool := do
  let given ← atMostOne? (parts.filter (· = .switch option))
  some given.isSome

/-- A whole number of 64 bits in decimal digits, with an optional plus sign. -/
def count? (text : String) : Option Nat :=
  let digits :=
    match text.toList with
    | '+' :: rest => rest
    | all => all
  if digits.isEmpty || !digits.all Char.isDigit then none
  else
    let value := digits.foldl (fun value c => value * 10 + (c.toNat - 48)) 0
    if value < UInt64.size then some value else none

def frames? (parts : List Part) : Option (Option Nat) := do
  match ← atMostOne? (valuesOf .frames parts) with
  | none => some none
  | some text => (count? text).map some

def positionals (parts : List Part) : List String :=
  parts.filterMap fun
    | .positional text => some text
    | _ => none

/-- The meaning of a command line, if it is well formed. -/
def parse? (arguments : List String) : Option Arguments := do
  let parts ← parts? arguments
  let [rom] := positionals parts | none
  if rom == "" then none
  else
    some
      { rom
        config := ← path? .config parts
        bootCode := ← path? .bootCode parts
        frames := ← frames? parts
        dumpFrame := ← path? .dumpFrame parts
        strict := ← switch? .strict parts
        unthrottled := ← switch? .unthrottled parts
        debug := ← switch? .debug parts }

end Arguments

end Handheld
