import Handheld.Session.Basic
import Handheld.Image.Png

/-! The program: sessions in the surroundings of the operating system. -/

namespace Handheld.Main

/-- The reason why the operating system refused a file. -/
def fileFault : IO.Error → FileFault
  | .noFileOrDirectory .. => .notFound
  | .permissionDenied .. => .permissionDenied
  | .inappropriateType _ code _ => if code = 20 then .notDirectory else .isDirectory
  | error => .other (toString error)

def attempt {α : Type} (act : IO α) : IO (Except FileFault α) := do
  try
    return .ok (← act)
  catch error =>
    return .error (fileFault error)

def levelName : LogLevel → String
  | .error => "ERROR"
  | .warn => "WARN"
  | .info => "INFO"
  | .debug => "DEBUG"
  | .trace => "TRACE"

/-- The surroundings given by the operating system, for a session begun at a time. -/
def surroundings (start : Nat) : Surroundings IO :=
  { fetchFile := fun path => attempt (IO.FS.readBinFile path)
    writePicture := fun path picture =>
      attempt (IO.FS.writeBinFile path (Png.encode picture))
    environment := fun name => IO.getEnv name
    showLine := fun line =>
      IO.eprintln ("[" ++ levelName line.level ++ " " ++ line.target ++ "] " ++ line.message)
    holdUntil := fun nanoseconds => do
      let elapsed := (← IO.monoNanosNow) - start
      let milliseconds := (nanoseconds - elapsed) / 1000000
      if milliseconds != 0 then IO.sleep (UInt32.ofNat milliseconds) }

end Handheld.Main

/-- Runs one session with the arguments of the command line. -/
def main (arguments : List String) : IO UInt32 := do
  let start ← IO.monoNanosNow
  let code ← Handheld.Session.run (Handheld.Main.surroundings start) arguments
  if code == 2 then
    IO.eprintln "usage: ROM [--config FILE] [--boot-rom FILE] [--frames N] [--dump-frame FILE]"
    IO.eprintln "       [--strict-io] [--unthrottled] [--debug]"
  return code
