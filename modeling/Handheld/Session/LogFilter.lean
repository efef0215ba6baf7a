import Handheld.Text.Blank

/-! Which log lines are shown. A filter is a list of directives, each a level for all targets
or for the targets that begin with a name; the longest name that fits decides.
-/

namespace Handheld

/-- How urgent a log line is, most urgent first. -/
inductive LogLevel where
  | error
  | warn
  | info
  | debug
  | trace
  deriving DecidableEq, Repr

namespace LogLevel

/-- The rank of a level among all levels; zero shows nothing. -/
def rank : LogLevel → Nat
  | .error => 1
  | .warn => 2
  | .info => 3
  | .debug => 4
  | .trace => 5

/-- The rank named by a text in any case. -/
def rankNamed? (name : String) : Option Nat :=
  let name := name.map Char.toLower
  if name == "off" then some 0
  else if name == "error" then some 1
  else if name == "warn" then some 2
  else if name == "info" then some 3
  else if name == "debug" then some 4
  else if name == "trace" then some 5
  else none

end LogLevel

/-- A line of the log. -/
structure LogLine where
  level : LogLevel
  /-- The part of the program that the line comes from. -/
  target : String
  message : String
  deriving DecidableEq, Repr

/-- A rule of a filter. -/
structure LogDirective where
  /-- The beginning of the targets concerned; without it all targets are. -/
  target : Option String
  /-- The rank up to which lines are shown. -/
  rank : Nat
  deriving DecidableEq, Repr

namespace LogDirective

def concerns (directive : LogDirective) (target : String) : Bool :=
  directive.target.all fun name => target.startsWith name

/-- How specific a directive is. -/
def weight (directive : LogDirective) : Nat :=
  directive.target.elim 0 String.utf8ByteSize

/-- The directive written by a text, if it has a meaning. A name alone shows all levels. -/
def ofText? (text : String) : Option LogDirective :=
  match text.splitOn "=" with
  | [name] =>
      match LogLevel.rankNamed? name with
      | some rank => some { target := none, rank }
      | none => some { target := some name, rank := LogLevel.trace.rank }
  | [name, level] =>
      let level := String.ofList (Blank.trim level.toList)
      if level == "" then some { target := some name, rank := LogLevel.trace.rank }
      else (LogLevel.rankNamed? level).map fun rank => { target := some name, rank }
  | _ => none

/-- Directives with one more; it takes the place of an earlier one for the same target. -/
def addTo (directive : LogDirective) : List LogDirective → List LogDirective
  | [] => [directive]
  | first :: rest =>
      if first.target = directive.target then directive :: rest
      else first :: directive.addTo rest

end LogDirective

/-- A filter for log lines. -/
structure LogFilter where
  directives : List LogDirective
  /-- Text that a message has to contain. -/
  required : Option String
  deriving DecidableEq, Repr

namespace LogFilter

/-- The filter written by a text: directives between commas, and after a slash the text that
messages have to contain. Directives without a meaning are dropped; a second slash makes the
whole text void. Without any directive only errors are shown.
-/
def ofText (text : String) : LogFilter :=
  let pieces :=
    match text.splitOn "/" with
    | [directives] => (directives, none)
    | [directives, required] => (directives, some required)
    | _ => ("", none)
  let written := (pieces.1.splitOn ",").map fun piece => String.ofList (Blank.trim piece.toList)
  let directives := (written.filter (· != "")).filterMap LogDirective.ofText?
  let merged := directives.foldl (fun merged directive => directive.addTo merged) []
  { directives :=
      if merged.isEmpty then [{ target := none, rank := LogLevel.error.rank }] else merged
    required := pieces.2 }

/-- The directive that decides about a target: of the most specific ones the last. -/
def decisive? (filter : LogFilter) (target : String) : Option LogDirective :=
  (filter.directives.filter (·.concerns target)).foldl
    (fun best directive =>
      match best with
      | none => some directive
      | some other => if other.weight ≤ directive.weight then some directive else best)
    none

def contains (text part : List Char) : Bool :=
  match text with
  | [] => part.isEmpty
  | _ :: rest => part.isPrefixOf text || contains rest part

def shows (filter : LogFilter) (line : LogLine) : Bool :=
  (filter.decisive? line.target).any (fun directive => line.level.rank ≤ directive.rank)
    && filter.required.all fun part => contains line.message.toList part.toList

end LogFilter

end Handheld
