import Handheld.Bus.Basic
import Handheld.FrameInterval
import Handheld.Text.Utf8
import Handheld.Toml.Document

/-! Settings read from a configuration file. A file that is missing or not text gives the
default settings, and so does one that is malformed or gives a setting an unsuitable value.
-/

namespace Handheld

/-- What a configuration file can set. -/
structure Settings where
  /-- The file with start-up code. -/
  bootCode : Option String
  policy : AccessPolicy
  frameRate : Binary64
  unthrottled : Bool
  deriving DecidableEq, Repr

namespace Settings

/-- The settings without a configuration file. -/
def initial : Settings :=
  { bootCode := none, policy := .bestEffort, frameRate := nominalFrameRate,
    unthrottled := false }

def policyOfName? (name : String) : Option AccessPolicy :=
  if name == "strict" then some .strict
  else if name == "best-effort" then some .bestEffort
  else none

/-- The policy given by a value: its name, or a table with the name as its only key and
nothing in it.
-/
def policyOf? : Toml.Value → Option AccessPolicy
  | .string name => policyOfName? name
  | .table _ [(name, .table _ [])] => policyOfName? name
  | .table _ [(name, .array _ [])] => policyOfName? name
  | _ => none

/-- The frame rate given by a value: a float, or an integer of 64 bits, signed or not. -/
def frameRateOf? : Toml.Value → Option Binary64
  | .float number => some number
  | .integer number =>
      if -(1 <<< 63 : Nat) ≤ number && number < UInt64.size then
        some (.ofRatio (number < 0) number.natAbs 1)
      else none
  | _ => none

def textOf? : Toml.Value → Option String
  | .string text => some text
  | _ => none

/-- The switch given by a value. -/
def flagOf? : Toml.Value → Option Bool
  | .boolean flag => some flag
  | _ => none

/-- A setting: its default without a value, and a failure for an unsuitable one. -/
def setting? {α : Type} (entries : Toml.Entries) (key : String) (default : α)
    (read : Toml.Value → Option α) : Option α :=
  match entries.get? key with
  | none => some default
  | some value => read value

/-- The settings of a document; other keys are ignored. -/
def ofEntries? (entries : Toml.Entries) : Option Settings := do
  let bootCode ← setting? entries "boot-rom" none fun value => (textOf? value).map some
  let policy ← setting? entries "io-policy" initial.policy policyOf?
  let frameRate ← setting? entries "frame-rate" initial.frameRate frameRateOf?
  let unthrottled ← setting? entries "unthrottled" initial.unthrottled flagOf?
  some { bootCode, policy, frameRate, unthrottled }

/-- What a configuration file gives. -/
inductive Loaded where
  /-- The settings of a readable file. -/
  | found (settings : Settings)
  /-- There is no file, or it is not text. -/
  | absent
  /-- The file is text, but not a usable document. -/
  | malformed

def load : Option ByteArray → Loaded
  | none => .absent
  | some bytes =>
      match Utf8.decode? bytes.toList with
      | none => .absent
      | some text =>
          match (Toml.Document.entriesOf? text).bind ofEntries? with
          | none => .malformed
          | some settings => .found settings

/-- The settings in force; whatever could not be read counts as not given. -/
def Loaded.inForce : Loaded → Settings
  | .found settings => settings
  | .absent | .malformed => initial

end Settings

end Handheld
