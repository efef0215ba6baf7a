import Handheld.Session.Arguments
import Handheld.Session.LogFilter
import Handheld.Session.Playback
import Handheld.Session.Settings

/-! One invocation of the program: arguments, settings, files, the run and an optional dump of
the last frame. The surroundings are a record of operations, so that the course of a session
is the same whatever they are.
-/

namespace Handheld

/-- Why a file could not be read or written. -/
inductive FileFault where
  | notFound
  | permissionDenied
  | notDirectory
  | isDirectory
  | other (text : String)
  deriving DecidableEq, Repr

/-- The text shown for a file that could not be used. -/
def FileFault.message : FileFault → String
  | .notFound => "No such file or directory (os error 2)"
  | .permissionDenied => "Permission denied (os error 13)"
  | .notDirectory => "Not a directory (os error 20)"
  | .isDirectory => "Is a directory (os error 21)"
  | .other text => text

/-- A reason to end a session early. -/
inductive SessionFault where
  | unreadable (path : String) (fault : FileFault)
  | unwritable (path : String) (fault : FileFault)
  | bootSize (path : String) (length : Nat)
  | image (fault : ImageFault)
  | stopped (fault : Fault)
  /-- The frame rate leaves more time between frames than a clock can tell. -/
  | endlessPeriod
  | noFrame
  deriving DecidableEq, Repr

/-- The text shown for a session that ended early. -/
def SessionFault.message : SessionFault → String
  | .unreadable path fault => "failed to read " ++ path ++ ": " ++ fault.message
  | .unwritable path fault => "failed to write " ++ path ++ ": " ++ fault.message
  | .bootSize path length =>
      "boot ROM " ++ path ++ " is " ++ toString length ++ " bytes, expected 256"
  | .image fault => "invalid cartridge: " ++ fault.message
  | .stopped fault => "emulation stopped: " ++ fault.message
  | .endlessPeriod => "emulation thread panicked"
  | .noFrame => "no frame was presented, nothing to dump"

/-- The surroundings of a session. -/
structure Surroundings (m : Type → Type) where
  fetchFile : String → m (Except FileFault ByteArray)
  /-- Writing a picture to an image file. -/
  writePicture : String → Picture → m (Except FileFault Unit)
  /-- The value of an environment variable. -/
  environment : String → m (Option String)
  /-- Showing a line of the log. -/
  showLine : LogLine → m Unit
  /-- Returning no earlier than so many nanoseconds after the session began. -/
  holdUntil : Nat → m Unit

namespace Session

/-- A step of a session, which may end it early. -/
abbrev Step (m : Type → Type) :=
  ExceptT SessionFault m

variable {m : Type → Type} [Monad m]

def mainTarget : String :=
  "dotmatrix"

def filesTarget : String :=
  "dotmatrix::files"

/-- The target of lines about settings. -/
def configTarget : String :=
  "dotmatrix::config"

/-- A path with a further part; a slash stands between them unless it is there already. -/
def joinPath (path part : String) : String :=
  if path == "" || path.endsWith "/" then path ++ part else path ++ "/" ++ part

/-- Where the settings are when the arguments do not say it. -/
def defaultConfigPath (xdg home : Option String) : String :=
  match xdg, home with
  | some directory, _ => joinPath (joinPath directory "dotmatrix") "host.toml"
  | none, some directory =>
      joinPath (joinPath (joinPath directory ".config") "dotmatrix") "host.toml"
  | none, none => "host.toml"

/-- The filter in force: the one in the environment, or a level by default. -/
def filterOf (given : Option String) (debug : Bool) : LogFilter :=
  .ofText (given.getD (if debug then "debug" else "info"))

/-- A line put into the log if the filter shows it. -/
def log (around : Surroundings m) (filter : LogFilter) (level : LogLevel)
    (target message : String) : m Unit := do
  let line : LogLine := { level, target, message }
  if filter.shows line then around.showLine line

/-- A line put into the log in the course of a session. -/
def tell (around : Surroundings m) (filter : LogFilter) (level : LogLevel)
    (target message : String) : Step m Unit :=
  ExceptT.lift (log around filter level target message)

/-- The settings in force, with a warning if their file is malformed. -/
def loadSettings (around : Surroundings m) (filter : LogFilter) (path : String)
    : m Settings := do
  let contents ← around.fetchFile path
  let loaded := Settings.load contents.toOption
  if loaded matches .malformed then
    log around filter .warn configTarget
      ("Failed to parse host config " ++ path ++ "; using defaults")
  return loaded.inForce

/-- The contents of a file that has to be there. -/
def readFile (around : Surroundings m) (path : String) : Step m ByteArray := do
  match ← around.fetchFile path with
  | .ok bytes => return bytes
  | .error fault => throw (.unreadable path fault)

def loadCartridge (around : Surroundings m) (filter : LogFilter) (path : String)
    : Step m Cartridge := do
  let image ← readFile around path
  match Cartridge.ofImage image with
  | .error fault => throw (.image fault)
  | .ok cartridge =>
      tell around filter .info filesTarget
        ("Loaded " ++ path ++ " (" ++ toString image.size ++ " bytes)")
      return cartridge

/-- The start-up code in a file, which has to fill the first page. -/
def loadBootCode (around : Surroundings m) (path : String) : Step m ByteArray := do
  let code ← readFile around path
  if code.size != 0x100 then throw (.bootSize path code.size)
  return code

def policyName : AccessPolicy → String
  | .strict => "Strict"
  | .bestEffort => "BestEffort"

def announcement (policy : AccessPolicy) (frames : Option Nat) : String :=
  let length :=
    match frames with
    | some count => toString count ++ " frames"
    | none => "until stopped"
  "Starting emulation (" ++ policyName policy ++ " I/O, " ++ length ++ ")"

/-- The time between frames; it has to be short enough to be added to a clock, which counts
seconds with a sign in 64 bits.
-/
def period? (rate : Binary64) : Option TimeSpan :=
  (frameInterval? rate).filter (·.seconds < 1 <<< 63)

/-- The last frame written to an image file. -/
def dump (around : Surroundings m) (filter : LogFilter) (path : String) (latest : LatestFrame)
    : Step m Unit := do
  match latest.frame with
  | none => throw .noFrame
  | some frame =>
      match ← around.writePicture path frame.picture with
      | .error fault => throw (.unwritable path fault)
      | .ok _ =>
          tell around filter .info filesTarget
            ("Wrote frame " ++ toString frame.number ++ " to " ++ path)

/-- A session with well-formed arguments. -/
def perform (around : Surroundings m) (filter : LogFilter) (arguments : Arguments)
    : Step m Unit := do
  let configPath ←
    match arguments.config with
    | some path => pure path
    | none =>
        let xdg ← around.environment "XDG_CONFIG_HOME"
        let home ← around.environment "HOME"
        pure (defaultConfigPath xdg home)
  let settings ← ExceptT.lift (loadSettings around filter configPath)
  let cartridge ← loadCartridge around filter arguments.rom
  let bootCode ←
    match arguments.bootCode.or settings.bootCode with
    | some path => some <$> loadBootCode around path
    | none => pure none
  let policy := if arguments.strict then .strict else settings.policy
  let machine := (Machine.ofSetup { policy, bootCode }).insert cartridge
  tell around filter .info mainTarget (announcement policy arguments.frames)
  match period? settings.frameRate with
  | none => throw .endlessPeriod
  | some period =>
      let source : FrameSource :=
        { machine, mailbox := .initial, shutdown := false, maxFrames := arguments.frames }
      match Playback.ofSource source with
      | .error fault => throw (.stopped fault)
      | .ok playback =>
          if !(arguments.unthrottled || settings.unthrottled) then
            around.holdUntil
              (playback.frames
                * (period.seconds * TimeSpan.nanosecondsPerSecond + period.nanoseconds))
          tell around filter .info mainTarget
            ("Emulated " ++ toString playback.frames ++ " frames, presented "
              ++ toString playback.latest.viewed)
          match arguments.dumpFrame with
          | some path => dump around filter path playback.latest
          | none => pure ()

/-- The code that the program exits with: two for a malformed command line, one for a session
that ended early, and otherwise zero.
-/
def run (around : Surroundings m) (arguments : List String) : m UInt32 := do
  match Arguments.parse? arguments with
  | none => return 2
  | some arguments =>
      let filter := filterOf (← around.environment "RUST_LOG") arguments.debug
      match ← (perform around filter arguments).run with
      | .ok _ => return 0
      | .error fault =>
          log around filter .error mainTarget fault.message
          return 1

end Session

end Handheld
