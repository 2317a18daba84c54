/-!
# Scriptling.File.Reading -- the text of a file

A file is read as a whole and must be valid UTF-8. Reading can fail for reasons of the file system, of
which those are told apart that a program's user can mend, or because the bytes are no text.
-/

set_option autoImplicit false

namespace Scriptling

/-- Why a file has no text. -/
inductive ReadError where
  | notFound
  | isDirectory
  /-- A file was used as a directory on the way. -/
  | notDirectory
  /-- A name on the way, or the whole path, is longer than names can be. -/
  | nameTooLong
  /-- The path holds the character that ends paths. -/
  | nulInPath
  /-- The bytes are not valid UTF-8. -/
  | invalidText
  /-- Any other reason, in the words of the system. -/
  | other (reason : String)
  deriving DecidableEq, Repr

/-- The wording of a read error. -/
def ReadError.message : ReadError → String
  | .notFound => "No such file or directory (os error 2)"
  | .isDirectory => "Is a directory (os error 21)"
  | .notDirectory => "Not a directory (os error 20)"
  | .nameTooLong => "File name too long (os error 36)"
  | .nulInPath => "file name contained an unexpected NUL byte"
  | .invalidText => "stream did not contain valid UTF-8"
  | .other reason => reason

/-- The text of a file's bytes. -/
def textOfBytes (bytes : ByteArray) : Except ReadError String :=
  match String.fromUTF8? bytes with
  | some s => .ok s
  | none => .error .invalidText

end Scriptling
