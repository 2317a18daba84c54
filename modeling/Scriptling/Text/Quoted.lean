import Scriptling.Text.Invisible
import Scriptling.Text.Extending

/-!
# Scriptling.Text.Quoted -- text between quotes

String and character literals are written between quotes with escapes. `decode` resolves the escapes a
program may use; `encode` writes a text so that it can be shown: the escapes of `decode` where there is
one, and the code point in hexadecimal where a character would not be seen or would attach to its
neighbour. The latter form is for the reader only, `decode` has no such escape.
-/

set_option autoImplicit false

namespace Scriptling.Text.Quoted

/-- The character a letter stands for after a backslash. -/
def unescape? : Char → Option Char
  | 'n' => some '\n'
  | 't' => some '\t'
  | 'r' => some '\r'
  | '0' => some '\x00'
  | '\\' => some '\\'
  | '\'' => some '\''
  | '"' => some '"'
  | _ => none

/-- Resolves the escapes of the text between two quotes. An unknown escape, or a backslash with nothing
after it, makes the text meaningless. -/
def decode : List Char → Option (List Char)
  | [] => some []
  | '\\' :: [] => none
  | '\\' :: c :: cs => (unescape? c).bind fun d => (decode cs).map (d :: ·)
  | c :: cs => (decode cs).map (c :: ·)

/-- Whether a character is written by its code point. -/
def isHidden (c : Char) : Bool := Text.isExtending c || Text.isInvisible c

/-- A character by its code point. -/
def codePoint (c : Char) : List Char :=
  ['\\', 'u', '\x7b'] ++ Nat.toDigits 16 c.toNat ++ ['\x7d']

/-- One character between quotes of the given kind. Only the quote that would end the text is escaped,
the other kind stands as it is. -/
def encodeChar (quote c : Char) : List Char :=
  if c = '\x00' then ['\\', '0']
  else if c = '\t' then ['\\', 't']
  else if c = '\r' then ['\\', 'r']
  else if c = '\n' then ['\\', 'n']
  else if c = '\\' ∨ c = quote then ['\\', c]
  else if isHidden c then codePoint c
  else [c]

/-- A text without its quotes. -/
def encode (quote : Char) (cs : List Char) : List Char := cs.flatMap (encodeChar quote)

/-- A string literal. -/
def string (s : String) : String := String.ofList ('"' :: encode '"' s.toList ++ ['"'])

/-- A character literal. -/
def char (c : Char) : String := String.ofList ('\'' :: encodeChar '\'' c ++ ['\''])

end Scriptling.Text.Quoted
