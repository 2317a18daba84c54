import Scriptling.CommandLine

/-!
# Scriptling.Main -- the command

Reads the file that the arguments name and hands everything to `CommandLine`, which decides what is
answered. Nothing but input and output happens here.
-/

set_option autoImplicit false

namespace Scriptling

/-- The system's number of an error. Some layers report it negated. -/
def systemCode (code : UInt32) : UInt32 := min code (0 - code)

/-- The cause of an error of the system. -/
def ReadError.ofSystem : IO.Error → ReadError
  | .noFileOrDirectory .. => .notFound
  | .inappropriateType _ code reason =>
    if systemCode code = 20 then .notDirectory
    else if systemCode code = 21 then .isDirectory
    else .other reason
  | .invalidArgument _ code reason =>
    if systemCode code = 36 then .nameTooLong else .other reason
  | e => .other (toString e)

/-- The bytes of a file of the system. -/
def readFile (path : String) : IO (Except ReadError ByteArray) := do
  try
    return .ok (← IO.FS.readBinFile path)
  catch e =>
    return .error (.ofSystem e)

end Scriptling

open Scriptling

/-- The command. -/
def main (args : List String) : IO UInt32 := do
  let completion ← match CommandLine.request? args with
    | some (.perform task file) => do
      let contents ← readFile file
      pure (CommandLine.perform task file contents)
    | _ => pure (CommandLine.complete args fun _ => .error .notFound)
  let out ← IO.getStdout
  out.write completion.out
  out.flush
  (← IO.getStderr).putStr completion.err
  return completion.exit.toUInt32
