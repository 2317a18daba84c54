/-!
# Scriptling.Machine.Output -- where printed text goes

An output collects bytes. It may have room for so many only: a text that does not fit fills it up and
the writing of it fails, but writing nothing always succeeds. Since it can be full in the middle of a
character, what was collected is read back with a replacement character for a cut one.
-/

set_option autoImplicit false

namespace Scriptling

/-- The bytes collected, and how many more there is room for, if that is limited. -/
structure Output where
  bytes : ByteArray
  room : Option Nat

namespace Output

/-- An output that holds nothing yet. -/
def empty (room : Option Nat) : Output := ⟨.empty, room⟩

/-- Writes a text as far as there is room, and tells whether all of it was written. -/
def write (text : String) (o : Output) : Output × Bool :=
  match o.room with
  | none => (⟨o.bytes ++ text.toUTF8, none⟩, true)
  | some n =>
    let size := text.utf8ByteSize
    if size ≤ n then (⟨o.bytes ++ text.toUTF8, some (n - size)⟩, true)
    else (⟨o.bytes ++ text.toUTF8.extract 0 n, some 0⟩, false)

/-- The text of bytes that are a text but for an incomplete character at the end. -/
def decode (bytes : ByteArray) : String :=
  match String.fromUTF8? bytes with
  | some s => s
  | none =>
    let cut := (List.range 3).findSome? fun i =>
      String.fromUTF8? (bytes.extract 0 (bytes.size - (i + 1)))
    cut.getD "" ++ "\ufffd"

/-- What was written. -/
def text (o : Output) : String := decode o.bytes

end Output

end Scriptling
