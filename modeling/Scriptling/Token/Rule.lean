import Scriptling.Number.Decimal
import Scriptling.Token

/-!
# Scriptling.Token.Rule -- the lexical rules

A rule describes a class of lexemes. `length?` measures the longest prefix of a text that belongs to the
class, `token?` reads a lexeme of the class as a token, and `munch` picks the rule that reaches
furthest. Measuring and reading are separate: whether a lexeme has a meaning (a number in range, a known
escape) never changes where it ends.
-/

set_option autoImplicit false

namespace Scriptling

/-- The classes of lexemes. The first four carry no token. -/
inductive Rule where
  | blank
  | lineBreak
  | lineComment
  | blockComment
  | integer
  | float
  | string
  | char
  | word
  | symbol
  deriving DecidableEq, Repr

namespace Rule

/-- All rules. -/
def all : List Rule :=
  [blank, lineBreak, lineComment, blockComment, integer, float, string, char, word, symbol]

/-- Whether lexemes of the rule are left out of the token sequence. -/
def isSkipped : Rule → Bool
  | blank | lineBreak | lineComment | blockComment => true
  | _ => false

/-! ## Characters -/

/-- Characters that only separate. The line break is not one of them, because it counts a line. -/
def isBlank (c : Char) : Bool := c = ' ' || c = '\t' || c = '\r' || c = '\x0c'

/-- Names are written in ASCII letters, digits and the underscore, and do not start with a digit. -/
def isWordStart (c : Char) : Bool := c.isAlpha || c = '_'

/-- Characters a name may go on with. -/
def isWordPart (c : Char) : Bool := c.isAlphanum || c = '_'

/-- How many characters from the start satisfy `p`. -/
def run (p : Char → Bool) (cs : List Char) : Nat := (cs.takeWhile p).length

/-- A length, unless it is zero. -/
def nonzero? (n : Nat) : Option Nat := if n = 0 then none else some n

/-! ## Lexemes with a closing delimiter -/

/-- How far a delimited lexeme reaches: up to and with its closing delimiter, or up to the place where
it can no longer be closed. -/
inductive Extent where
  | closed (length : Nat)
  | unclosed (length : Nat)
  deriving DecidableEq, Repr

/-- The length of a lexeme that is closed. -/
def Extent.closed? : Extent → Option Nat
  | .closed n => some n
  | .unclosed _ => none

/-- How many characters are taken up, closed or not. -/
def Extent.length : Extent → Nat
  | .closed n => n
  | .unclosed n => n

/-- The extent of a string literal of which `n` characters are read. A backslash takes the next
character with it; neither of them may be followed by the end of the line. -/
def stringExtent (n : Nat) : List Char → Extent
  | [] => .unclosed n
  | '"' :: _ => .closed (n + 1)
  | '\n' :: _ => .unclosed n
  | '\\' :: [] => .unclosed n
  | '\\' :: c :: cs => if c = '\n' then .unclosed n else stringExtent (n + 2) cs
  | _ :: cs => stringExtent (n + 1) cs

/-- The extent of a block comment of which `n` characters are read. The body is made of single
characters other than a star and of pairs of a star and a character other than a slash, so a star takes
the next character with it and the comment ends at the first `*/` that no pair has split. -/
def commentExtent (n : Nat) : List Char → Extent
  | [] => .unclosed n
  | '*' :: [] => .unclosed n
  | '*' :: '/' :: _ => .closed (n + 2)
  | '*' :: _ :: cs => commentExtent (n + 2) cs
  | _ :: cs => commentExtent (n + 1) cs

/-! ## Symbols and words -/

/-- Operators and marks with their tokens. The longer of two that start alike comes first. -/
def symbols : List (List Char × Token) := [
  (['+', '='], .assign (.compound .add)),
  (['-', '='], .assign (.compound .sub)),
  (['*', '='], .assign (.compound .mul)),
  (['/', '='], .assign (.compound .div)),
  (['%', '='], .assign (.compound .mod)),
  (['-', '>'], .mark .arrow),
  (['&', '&'], .operator (.logical .and)),
  (['|', '|'], .operator (.logical .or)),
  (['<', '<'], .operator (.shift .left)),
  (['>', '>'], .operator (.shift .right)),
  (['=', '='], .operator (.equality .equal)),
  (['!', '='], .operator (.equality .notEqual)),
  (['<', '='], .operator (.comparison .lessEqual)),
  (['>', '='], .operator (.comparison .greaterEqual)),
  (['+'], .operator (.arithmetic .add)),
  (['-'], .operator (.arithmetic .sub)),
  (['*'], .operator (.arithmetic .mul)),
  (['/'], .operator (.arithmetic .div)),
  (['%'], .operator (.arithmetic .mod)),
  (['&'], .operator (.bitwise .and)),
  (['|'], .operator (.bitwise .or)),
  (['^'], .operator (.bitwise .xor)),
  (['<'], .operator (.comparison .less)),
  (['>'], .operator (.comparison .greater)),
  (['!'], .not),
  (['~'], .complement),
  (['='], .assign .plain),
  (['('], .mark .openParen),
  ([')'], .mark .closeParen),
  (['\x7b'], .mark .openBrace),
  (['\x7d'], .mark .closeBrace),
  ([','], .mark .comma),
  ([':'], .mark .colon),
  ([';'], .mark .semicolon)]

/-- The symbol a text starts with. A slash before a star opens a comment and is no operator, not even
where the comment is never closed. -/
def symbol? : List Char → Option (List Char × Token)
  | '/' :: '*' :: _ => none
  | cs => symbols.find? fun s => s.1.isPrefixOf cs

/-- Words that are literals or types. `bool` has a long form. -/
def reserved : List (String × Token) := [
  ("true", .bool true),
  ("false", .bool false),
  ("int", .typeName .int),
  ("float", .typeName .float),
  ("bool", .typeName .bool),
  ("boolean", .typeName .bool),
  ("string", .typeName .string),
  ("char", .typeName .char),
  ("void", .typeName .void)]

/-- The token of a word: a reserved one, a keyword, or else a name. -/
def wordToken (w : String) : Token :=
  match reserved.lookup w with
  | some t => t
  | none =>
    match Keyword.all.find? fun k => k.text == w with
    | some k => .keyword k
    | none => .identifier w

/-! ## Numbers -/

/-- The length of an exponent: `e`, an optional sign, digits. Without digits there is none. -/
def exponentLength : List Char → Nat
  | [] => 0
  | c :: cs =>
    if c = 'e' || c = 'E' then
      -- Where no digits follow, the letter starts a word of its own.
      match cs with
      | [] => 0
      | s :: ds =>
        if s = '+' || s = '-' then
          let n := run Char.isDigit ds
          if n = 0 then 0 else n + 2
        else
          let n := run Char.isDigit (s :: ds)
          if n = 0 then 0 else n + 1
    else 0

/-- The length of a float: digits on both sides of a point, then an optional exponent. -/
def floatLength? (cs : List Char) : Option Nat :=
  let whole := run Char.isDigit cs
  if whole = 0 then none
  else
    match cs.drop whole with
    | '.' :: r =>
      let fraction := run Char.isDigit r
      if fraction = 0 then none
      else some (whole + 1 + fraction + exponentLength (r.drop fraction))
    | _ => none

/-- The length of a character literal: one character, or a backslash and one character, between single
quotes on one line. -/
def charLength? : List Char → Option Nat
  | '\'' :: '\\' :: c :: '\'' :: _ => if c = '\n' then none else some 4
  | '\'' :: c :: '\'' :: _ => if c = '\'' || c = '\\' || c = '\n' then none else some 3
  | _ => none

/-! ## Measuring and reading -/

/-- The length of the longest prefix that is a lexeme of the rule. -/
def length? : Rule → List Char → Option Nat
  | blank, cs => nonzero? (run isBlank cs)
  | lineBreak, '\n' :: _ => some 1
  | lineComment, '/' :: '/' :: cs => some (2 + run (fun c => c ≠ '\n' && c ≠ '\r') cs)
  | blockComment, '/' :: '*' :: cs => (commentExtent 2 cs).closed?
  | integer, cs => nonzero? (run Char.isDigit cs)
  | float, cs => floatLength? cs
  | string, '"' :: cs => (stringExtent 1 cs).closed?
  | char, cs => charLength? cs
  | word, c :: cs => if isWordStart c then some (1 + run isWordPart cs) else none
  | symbol, cs => (symbol? cs).map fun s => s.1.length
  | _, _ => none

/-- The text between the first and the last character. -/
def inner (cs : List Char) : List Char := (cs.drop 1).dropLast

/-- The token a lexeme of the rule is. None if the lexeme is skipped or has no meaning. -/
def token? : Rule → List Char → Option Token
  | integer, cs => (Word.ofDigits? cs).map .integer
  | float, cs => (Decimal.ofChars? cs).map fun d => .float (d.toFloat false)
  | string, cs => (Text.Quoted.decode (inner cs)).map fun s => .string (String.ofList s)
  | char, cs =>
    match Text.Quoted.decode (inner cs) with
    | some [c] => some (.char c)
    | _ => none
  | word, cs => some (wordToken (String.ofList cs))
  | symbol, cs => (symbol? cs).map (·.2)
  | blank, _ | lineBreak, _ | lineComment, _ | blockComment, _ => none

/-- The rule that reaches furthest into a text, and how far. No two rules reach equally far. -/
def munch (cs : List Char) : Option (Rule × Nat) :=
  all.foldl (fun best r =>
    match r.length? cs, best with
    | some n, some (_, m) => if m < n then some (r, n) else best
    | some n, none => some (r, n)
    | none, _ => best) none

/-- How much of a text is to blame if no rule applies: as much as a string or a comment could have been,
or else one character. -/
def blame : List Char → Nat
  | '"' :: cs => (stringExtent 1 cs).length
  | '/' :: '*' :: cs => (commentExtent 2 cs).length
  | _ => 1

end Rule

end Scriptling
