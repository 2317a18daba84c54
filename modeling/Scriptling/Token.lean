import Scriptling.Number.Word
import Scriptling.Number.Shortest
import Scriptling.Text.Quoted
import Scriptling.Syntax.Operator

/-!
# Scriptling.Token -- the words of a program

A token is a literal, a name, a keyword, an operator or a mark. Each kind carries what the grammar asks
of it: an operator token holds the operator, a type keyword the type. A token's `name` is its
description in messages and listings.
-/

set_option autoImplicit false

namespace Scriptling

/-- Words with a fixed meaning, other than the names of types and truth values. -/
inductive Keyword where
  | if_
  | elif_
  | else_
  | while_
  | for_
  | return_
  | break_
  | remit_
  | print_
  | func_
  | cast_
  | constant_
  deriving DecidableEq, Repr

namespace Keyword

/-- All keywords. -/
def all : List Keyword :=
  [if_, elif_, else_, while_, for_, return_, break_, remit_, print_, func_, cast_, constant_]

/-- How a program writes a keyword. -/
def text : Keyword → String
  | if_ => "if"
  | elif_ => "elif"
  | else_ => "else"
  | while_ => "while"
  | for_ => "for"
  | return_ => "return"
  | break_ => "break"
  | remit_ => "remit"
  | print_ => "print"
  | func_ => "func"
  | cast_ => "cast"
  | constant_ => "constant"

/-- How messages name a keyword. -/
def name : Keyword → String
  | if_ => "If"
  | elif_ => "Elif"
  | else_ => "Else"
  | while_ => "While"
  | for_ => "For"
  | return_ => "Return"
  | break_ => "Break"
  | remit_ => "Remit"
  | print_ => "Print"
  | func_ => "Func"
  | cast_ => "Cast"
  | constant_ => "Constant"

end Keyword

/-- Brackets and separators. -/
inductive Mark where
  | arrow
  | openParen
  | closeParen
  | openBrace
  | closeBrace
  | comma
  | colon
  | semicolon
  deriving DecidableEq, Repr

/-- How messages name a mark. -/
def Mark.name : Mark → String
  | .arrow => "Arrow"
  | .openParen => "LParen"
  | .closeParen => "RParen"
  | .openBrace => "LBrace"
  | .closeBrace => "RBrace"
  | .comma => "Comma"
  | .colon => "Colon"
  | .semicolon => "Semicolon"

/-- The words of a program. A minus sign is the subtraction operator wherever it stands, and the angle
brackets of a cast are comparison operators; the grammar tells them apart. -/
inductive Token where
  | integer (w : Word)
  | float (x : Float)
  | bool (b : Bool)
  | string (s : String)
  | char (c : Char)
  | identifier (name : String)
  | keyword (k : Keyword)
  | typeName (t : ValueType)
  | operator (op : BinaryOperator)
  | not
  | complement
  | assign (op : AssignOperator)
  | mark (m : Mark)
  deriving DecidableEq, Repr

namespace Token

/-- How messages name a type keyword. -/
def typeLabel : ValueType → String
  | .int => "IntType"
  | .float => "FloatType"
  | .bool => "BoolType"
  | .string => "StringType"
  | .char => "CharType"
  | .void => "VoidType"

/-- How messages name a binary operator. -/
def operatorLabel : BinaryOperator → String
  | .arithmetic .add => "Plus"
  | .arithmetic .sub => "Minus"
  | .arithmetic .mul => "Star"
  | .arithmetic .div => "Slash"
  | .arithmetic .mod => "Percent"
  | .shift .left => "ShiftLeft"
  | .shift .right => "ShiftRight"
  | .comparison .less => "Less"
  | .comparison .greater => "Greater"
  | .comparison .lessEqual => "LessEqual"
  | .comparison .greaterEqual => "GreaterEqual"
  | .equality .equal => "EqualEqual"
  | .equality .notEqual => "BangEqual"
  | .bitwise .and => "Ampersand"
  | .bitwise .or => "Pipe"
  | .bitwise .xor => "Caret"
  | .logical .and => "DoubleAmpersand"
  | .logical .or => "DoublePipe"

/-- How messages name an assignment operator. -/
def assignLabel : AssignOperator → String
  | .plain => "Equals"
  | .compound .add => "PlusAssign"
  | .compound .sub => "MinusAssign"
  | .compound .mul => "MulAssign"
  | .compound .div => "DivAssign"
  | .compound .mod => "ModAssign"

/-- How messages and listings name a token: its kind, and in parentheses what a literal or a name
holds. -/
def name : Token → String
  | integer w => "Integer(" ++ w.text ++ ")"
  | float x => "Float(" ++ Binary64.text x ++ ")"
  | bool b => if b then "Bool(true)" else "Bool(false)"
  | string s => "Str(" ++ Text.Quoted.string s ++ ")"
  | char c => "Char(" ++ Text.Quoted.char c ++ ")"
  | identifier n => "Identifier(" ++ Text.Quoted.string n ++ ")"
  | keyword k => k.name
  | typeName t => typeLabel t
  | operator op => operatorLabel op
  | not => "Bang"
  | complement => "Tilde"
  | assign op => assignLabel op
  | mark m => m.name

/-- The binary operator a token is. -/
def binary? : Token → Option BinaryOperator
  | operator op => some op
  | _ => none

/-- The assignment operator a token is. -/
def assign? : Token → Option AssignOperator
  | assign op => some op
  | _ => none

/-- The operator a token is when it stands before an operand. -/
def unary? : Token → Option UnaryOperator
  | operator (.arithmetic .sub) => some .negate
  | not => some .not
  | complement => some .complement
  | _ => none

end Token

/-- A token and the line it stands on. Lines are counted from one. -/
structure Lexeme where
  token : Token
  line : Nat
  deriving DecidableEq, Repr

end Scriptling
