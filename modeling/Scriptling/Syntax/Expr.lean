import Scriptling.Token
import Scriptling.Syntax.Sexpr

/-!
# Scriptling.Syntax.Expr -- expressions

The trees of expressions. Every node carries the line of its first token, for the sake of messages; it
has no meaning beyond that. Parentheses are kept as a node of their own, so a tree determines the tokens
it was written with.
-/

set_option autoImplicit false

namespace Scriptling

/-- A value written down in a program. -/
inductive Literal where
  | int (w : Word)
  | float (x : Float)
  | bool (b : Bool)
  | string (s : String)
  | char (c : Char)
  deriving DecidableEq, Repr

namespace Literal

/-- The type of a literal. -/
def type : Literal → ValueType
  | int _ => .int
  | float _ => .float
  | bool _ => .bool
  | string _ => .string
  | char _ => .char

/-- The text of a literal. -/
def text : Literal → String
  | int w => w.text
  | float x => Binary64.text x
  | bool true => "true"
  | bool false => "false"
  | string s => Text.Quoted.string s
  | char c => Text.Quoted.char c

/-- The literal a token is. -/
def ofToken? : Token → Option Literal
  | .integer w => some (int w)
  | .float x => some (float x)
  | .bool b => some (bool b)
  | .string s => some (string s)
  | .char c => some (char c)
  | _ => none

end Literal

/-- Expressions. -/
inductive Expr where
  | literal (value : Literal) (line : Nat)
  | name (x : String) (line : Nat)
  /-- An expression in parentheses. -/
  | group (inner : Expr) (line : Nat)
  | call (function : String) (arguments : List Expr) (line : Nat)
  | cast (target : ValueType) (operand : Expr) (line : Nat)
  | unary (op : UnaryOperator) (operand : Expr) (line : Nat)
  | binary (op : BinaryOperator) (left right : Expr) (line : Nat)
  | assign (op : AssignOperator) (target : String) (value : Expr) (line : Nat)

namespace Expr

/-- The line an expression starts on. -/
def line : Expr → Nat
  | literal _ n => n
  | name _ n => n
  | group _ n => n
  | call _ _ n => n
  | cast _ _ n => n
  | unary _ _ n => n
  | binary _ _ _ n => n
  | assign _ _ _ n => n

mutual

/-- An expression as an S-expression, the operator in front. -/
def sexpr : Expr → Sexpr
  | literal v _ => .atom v.text
  | name x _ => .atom x
  | group e _ => .node "group" [e.sexpr]
  | call f args _ => .node "call" (.atom f :: sexprs args)
  | cast t e _ => .node "cast" [.atom t.name, e.sexpr]
  | unary op e _ => .node op.symbol [e.sexpr]
  | binary op l r _ => .node op.symbol [l.sexpr, r.sexpr]
  | assign op x e _ => .node op.symbol [.atom x, e.sexpr]

/-- Several expressions as S-expressions. -/
def sexprs : List Expr → List Sexpr
  | [] => []
  | e :: es => e.sexpr :: sexprs es

end

/-- The text that shows an expression. -/
def text (e : Expr) : String := e.sexpr.text

end Expr

end Scriptling
