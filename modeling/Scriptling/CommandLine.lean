import Scriptling.Execution

/-!
# Scriptling.CommandLine -- what the program's user asks for

    FILE [--tokens | --ast] [-v | --verbose] [-V | --version] [-h | --help]

The arguments are read from left to right. A question for the version or for help is answered as soon as
it is met; what comes after it is not looked at, and what came before need not be complete. Otherwise
there must be one file, and every option at most once. The log that `--verbose` asks for is no part of
the answer.
-/

set_option autoImplicit false

namespace Scriptling.CommandLine

/-- What is to be done with a file. -/
inductive Task where
  | run
  | showTokens
  | showTree
  deriving DecidableEq, Repr

/-- What a user can ask for. -/
inductive Request where
  | perform (task : Task) (file : String)
  | version
  | help
  deriving DecidableEq, Repr

/-- The options. -/
inductive Flag where
  | tokens
  | ast
  | verbose
  | version
  | help
  deriving DecidableEq, Repr

/-- The option a long name stands for. -/
def longFlag? : String → Option Flag
  | "--tokens" => some .tokens
  | "--ast" => some .ast
  | "--verbose" => some .verbose
  | "--version" => some .version
  | "--help" => some .help
  | _ => none

/-- The option a letter stands for. -/
def shortFlag? : Char → Option Flag
  | 'v' => some .verbose
  | 'V' => some .version
  | 'h' => some .help
  | _ => none

/-- What was read so far. -/
structure Seen where
  flags : List Flag
  file : Option String

/-- Either the arguments ask for something at once, or there is more to read. -/
inductive Step where
  | more (s : Seen)
  | answer (r : Option Request)

/-- Takes note of options up to one that is answered at once or was there before. -/
def Seen.note (s : Seen) : List Flag → Step
  | [] => .more s
  | f :: fs =>
    -- An empty file name is refused as soon as the next option shows that it is complete.
    if s.file = some "" then .answer none
    else if f = .version then .answer (some .version)
    else if f = .help then .answer (some .help)
    else if f ∈ s.flags then .answer none
    else Seen.note ⟨f :: s.flags, s.file⟩ fs

/-- Takes note of a file. There can be one only. -/
def Seen.noteFile (s : Seen) (file : String) : Step :=
  match s.file with
  | none => .more ⟨s.flags, some file⟩
  | some _ => .answer none

/-- The letters behind a dash that are options, up to the first that is none. -/
def knownLetters : List Char → List Flag × Bool
  | [] => ([], true)
  | c :: cs =>
    match shortFlag? c with
    | some f => let (fs, complete) := knownLetters cs; (f :: fs, complete)
    | none => ([], false)

/-- Takes note of one argument before any `--`. -/
def Seen.noteArgument (s : Seen) (arg : String) : Step :=
  match arg.toList with
  | '-' :: '-' :: _ =>
    match longFlag? arg with
    | some f => s.note [f]
    | none => .answer none
  | '-' :: c :: cs =>
    let (fs, complete) := knownLetters (c :: cs)
    match s.note fs with
    | .more s' => if complete then .more s' else .answer none
    | .answer r => .answer r
  | _ => s.noteFile arg

/-- What is asked for when all arguments are read. -/
def Seen.request? (s : Seen) : Option Request :=
  match s.file with
  | none => none
  | some "" => none
  | some file =>
    match decide (Flag.tokens ∈ s.flags), decide (Flag.ast ∈ s.flags) with
    | true, true => none
    | true, false => some (.perform .showTokens file)
    | false, true => some (.perform .showTree file)
    | false, false => some (.perform .run file)

/-- Reads the arguments. After `--` all of them are files. -/
def Seen.read (s : Seen) (onlyFiles : Bool) : List String → Option Request
  | [] => s.request?
  | arg :: args =>
    if arg = "--" ∧ ¬ onlyFiles then Seen.read s true args
    else
      match (if onlyFiles then s.noteFile arg else s.noteArgument arg) with
      | .more s' => Seen.read s' onlyFiles args
      | .answer r => r

/-- What the arguments ask for, if they make sense. -/
def request? (args : List String) : Option Request := Seen.read ⟨[], none⟩ false args

/-! ## Answers -/

/-- What a request leads to: an exit code and the text for both channels. -/
structure Completion where
  exit : Nat
  out : ByteArray
  err : String

/-- The answer to a question for the version. -/
def versionText : String := "yapl 0.1.0\n"

/-- How the command is called. -/
def usageText : String := "Usage: yapl [OPTIONS] <FILE>\n"

/-- The answer to a question for help. -/
def helpText : String :=
  "yapl runs scripts written in a small, type-annotated scripting language\n\n" ++ usageText ++
  "\nArguments:\n  <FILE>  Path of the script to run\n\nOptions:\n" ++
  "      --tokens   Print the token stream instead of running the script\n" ++
  "      --ast      Print the parsed declarations instead of running the script\n" ++
  "  -v, --verbose  Log interpreter internals to stderr\n" ++
  "  -h, --help     Print help\n" ++
  "  -V, --version  Print version\n"

/-- The answer to arguments that make no sense. -/
def misuse : Completion := ⟨2, .empty, usageText⟩

/-- A number set to the right in four columns. -/
def column (n : Nat) : String :=
  let digits := Digits.write n
  String.ofList (List.replicate (4 - digits.length) ' ' ++ digits)

/-- One line for each token. -/
def tokenListing (ts : List Lexeme) : String :=
  String.join (ts.map fun l => column l.line ++ " " ++ l.token.name ++ "\n")

/-- One line for each statement. -/
def treeListing (p : Program) : String := String.join (p.statements.map fun s => s.text ++ "\n")

/-- The report of a failure. -/
def complaint (file : String) : Failure → String
  | .unreadable e => file ++ ": " ++ e.message ++ "\n"
  | .malformed file errors => SyntaxError.report file errors ++ "\n"
  | .runtime e => e.message ++ "\n"
  | .unflushed => file ++ ": output could not be flushed\n"

/-- The completion of a listing. -/
def listing (file : String) : Except Failure String → Completion
  | .ok text => ⟨0, text.toUTF8, ""⟩
  | .error f => ⟨1, .empty, complaint file f⟩

/-- The tokens of a file, listed. -/
def listTokens (file source : String) : Except Failure String :=
  match Token.ofText source with
  | .ok ts => .ok (tokenListing ts)
  | .error e => .error (.malformed file [e])

/-- The statements of a file, listed. -/
def listTree (file source : String) : Except Failure String :=
  match Program.ofText source file with
  | .ok p => .ok (treeListing p)
  | .error errors => .error (.malformed file errors)

/-- The text of a file for a listing. -/
def source (contents : Except ReadError ByteArray) : Except Failure String :=
  match contents.bind textOfBytes with
  | .ok text => .ok text
  | .error e => .error (.unreadable e)

/-- Does a task with a file, of which the bytes or the reason for having none are given. -/
def perform (task : Task) (file : String) (contents : Except ReadError ByteArray) : Completion :=
  match task with
  | .showTokens => listing file ((source contents).bind (listTokens file))
  | .showTree => listing file ((source contents).bind (listTree file))
  | .run =>
    let report := Program.runFile file contents true (.empty none)
    match report.ending with
    | .finished => ⟨0, report.output.bytes, ""⟩
    | .failed f => ⟨1, report.output.bytes, complaint file f⟩
    | .unfinished => ⟨1, report.output.bytes, ""⟩

/-- Answers arguments, given the contents of files. -/
def complete (args : List String) (contents : String → Except ReadError ByteArray) : Completion :=
  match request? args with
  | none => misuse
  | some .version => ⟨0, versionText.toUTF8, ""⟩
  | some .help => ⟨0, helpText.toUTF8, ""⟩
  | some (.perform task file) => perform task file (contents file)

end Scriptling.CommandLine
