import Scriptling.Token

/-!
# Scriptling.SyntaxError -- why a text is no program

A syntax error is a cause and a line. What the grammar expected is a cause too, one for every place
where it can be disappointed, and is put into words by `Expected.text` alone.
-/

set_option autoImplicit false

namespace Scriptling

/-- What the grammar expected at the place of an error. -/
inductive Expected where
  | declaration
  | expression
  | identifier
  | type
  | colon
  | colonAfterParameter
  | openParenAfterFunc
  | commaOrCloseParen
  | openBrace
  | closeBrace
  | closeParen
  | lessAfterCast
  | greaterAfterType
  | openParenBeforeOperand
  | closeParenAfterOperand
  | semicolon
  | semicolonAfterDeclaration
  | semicolonAfterPrint
  | semicolonAfterCondition
  | semicolonAfterReturn
  | semicolonAfterExpression
  deriving DecidableEq, Repr

/-- The wording of an expectation. -/
def Expected.text : Expected → String
  | .declaration => "a declaration"
  | .expression => "an expression"
  | .identifier => "identifier"
  | .type => "a type"
  | .colon => "':'"
  | .colonAfterParameter => "':' after parameter name"
  | .openParenAfterFunc => "'(' after 'func'"
  | .commaOrCloseParen => "',' or RParen"
  | .openBrace => "'\x7b'"
  | .closeBrace => "'\x7d'"
  | .closeParen => "')'"
  | .lessAfterCast => "'<' after 'cast'"
  | .greaterAfterType => "'>' after cast type"
  | .openParenBeforeOperand => "'(' before cast operand"
  | .closeParenAfterOperand => "')' after cast operand"
  | .semicolon => "';'"
  | .semicolonAfterDeclaration => "';' after declaration"
  | .semicolonAfterPrint => "';' after print"
  | .semicolonAfterCondition => "';' after loop condition"
  | .semicolonAfterReturn => "';' after return"
  | .semicolonAfterExpression => "';' after expression"

/-- What is wrong with a text. -/
inductive Problem where
  /-- No token starts here; the text is what was looked at in vain. -/
  | unrecognized (text : String)
  /-- A token stands where something else must. -/
  | unexpected (expected : Expected) (found : Token)
  /-- The text ends where something must follow. -/
  | endOfInput (expected : Expected)
  /-- Something other than a variable is assigned to. -/
  | invalidTarget
  /-- `elif` or `else` without the `if` it belongs to. -/
  | danglingBranch (keyword : Keyword)
  deriving DecidableEq, Repr

/-- The wording of a problem. -/
def Problem.message : Problem → String
  | .unrecognized text => "unrecognized input '" ++ text ++ "'"
  | .unexpected expected found => "expected " ++ expected.text ++ ", found " ++ found.name
  | .endOfInput expected => "expected " ++ expected.text ++ ", found end of input"
  | .invalidTarget => "invalid assignment target"
  | .danglingBranch k => "'" ++ k.text ++ "' without a preceding 'if'"

/-- A problem and the line it is on. -/
structure SyntaxError where
  problem : Problem
  line : Nat
  deriving DecidableEq, Repr

namespace SyntaxError

/-- The wording of an error, without its place. -/
def message (e : SyntaxError) : String := e.problem.message

/-- A parser does not know where the text ends, so an error at the end of input has no line until it is
put on the last one. All other errors know their line. -/
def locate (lastLine : Nat) (e : SyntaxError) : SyntaxError :=
  match e.problem with
  | .endOfInput _ => ⟨e.problem, lastLine⟩
  | _ => e

end SyntaxError

end Scriptling
