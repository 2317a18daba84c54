import Scriptling.File.Reading
import Scriptling.Grammar.Program
import Scriptling.Machine.Evaluate

/-!
# Scriptling.Execution -- running a program from its text

The text is read as a program; a program with errors is not run at all. Otherwise it is interpreted by a
new machine and the output is flushed, also after a fault. What is reported is the first thing that went
wrong in this order: reading, flushing, interpreting.
-/

set_option autoImplicit false

namespace Scriptling

/-- Why a program did not run to its end. -/
inductive Failure where
  /-- The file could not be read. -/
  | unreadable (e : ReadError)
  /-- The text is no program. -/
  | malformed (file : String) (errors : List SyntaxError)
  /-- A fault was raised. -/
  | runtime (e : RuntimeError)
  /-- What was printed could not be handed on. -/
  | unflushed
  deriving DecidableEq, Repr

/-- The lines that report syntax errors. -/
def SyntaxError.report (file : String) (errors : List SyntaxError) : String :=
  String.intercalate "\n" <| errors.map fun e =>
    file ++ ":" ++ String.ofList (Digits.write e.line) ++ ": " ++ e.message

/-- How a run ended. A run that used up its time is unfinished. -/
inductive Ending where
  | finished
  | failed (f : Failure)
  | unfinished
  deriving DecidableEq, Repr

/-- What a run left behind. -/
structure Report where
  output : Output
  ending : Ending

namespace Program

/-- Runs the program that a text is. The flag tells whether the output can be flushed. -/
def runText (source file : String) (flushes : Bool) (out : Output) : Report :=
  match ofText source file with
  | .error errors => ⟨out, .failed (.malformed file errors)⟩
  | .ok p =>
    match Machine.interpret Machine.ample p (Machine.initial out) with
    | .done _ m => ⟨m.output, if flushes then .finished else .failed .unflushed⟩
    | .raised e m => ⟨m.output, .failed (if flushes then .runtime e else .unflushed)⟩
    | .exhausted => ⟨out, .unfinished⟩

/-- Runs the program in a file, of which the bytes or the reason for having none are given. -/
def runFile (path : String) (contents : Except ReadError ByteArray) (flushes : Bool) (out : Output) :
    Report :=
  match contents.bind textOfBytes with
  | .error e => ⟨out, .failed (.unreadable e)⟩
  | .ok source => runText source path flushes out

end Program

end Scriptling
