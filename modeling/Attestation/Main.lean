/-
The program: reads the arguments, looks at the file, the variables and
the clock that a run may ask for, and prints what the run leaves.
-/
import Attestation.CommandLine.Run
import Std.Time.DateTime.Timestamp

namespace Attestation

namespace Program

/-- The fault that an error of the system means. The number of an error
comes with either sign. -/
def faultOf : IO.Error → FileFault
  | .noFileOrDirectory _ _ _ => .notFound
  | .permissionDenied _ _ _ => .forbidden
  | .inappropriateType _ code words =>
    match code.toInt32.toInt.natAbs with
    | 20 => .notDirectory
    | 21 => .isDirectory
    | _ => .other words
  | .invalidArgument _ code words =>
    match code.toInt32.toInt.natAbs with
    | 36 => .nameTooLong
    | _ => .other words
  | error => .other (toString error)

/-- The content of a file, or why it cannot be read. -/
def readContent (name : String) : IO (Except FileFault Bytes) := do
  try
    let content ← IO.FS.readBinFile name
    return .ok content.toList
  catch error =>
    return .error (faultOf error)

/-- The variables that a setup is read from, as they are set. -/
def readSettings : IO (List (String × String)) :=
  Setting.all.filterMapM fun setting => do
    let value ← IO.getEnv setting.name
    return value.map fun text => (setting.name, text)

def readClock : IO UInt64 := do
  let now ← Std.Time.Timestamp.now
  return UInt64.ofNat now.toSecondsSinceUnixEpoch.val.toNat

/-- The world as a run of the given arguments sees it. -/
def readSurroundings (arguments : List String) : IO Surroundings := do
  let settings ← readSettings
  let content ←
    match CommandLine.parse arguments with
    | .ok request => readContent request.input.file
    | .error _ => pure (.error .notFound)
  let clock ← readClock
  return ⟨fun _ => content, fun name => settings.lookup name, clock⟩

end Program

end Attestation

open Attestation Program in
def main (arguments : List String) : IO UInt32 := do
  let world ← readSurroundings arguments
  let outcome := CommandLine.run world arguments
  IO.print outcome.stdout
  IO.eprint outcome.stderr
  return UInt32.ofNat outcome.exitCode
