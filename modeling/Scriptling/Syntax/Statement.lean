import Scriptling.Syntax.Expr

/-!
# Scriptling.Syntax.Statement -- statements and programs

The trees of statements. Their types hold only what the grammar can produce: a parameter has no initial
value, a `print` has something to print, and the branches of a conditional are any number of `elif`s with
at most one `else`, which comes last.
-/

set_option autoImplicit false

namespace Scriptling

/-- A variable with its type, its initial value if it has one, and whether it may be assigned to. -/
structure VarDecl where
  name : String
  type : ValueType
  constant : Bool
  initial : Option Expr
  line : Nat

/-- A parameter of a function. -/
structure Param where
  name : String
  type : ValueType
  constant : Bool
  line : Nat
  deriving DecidableEq, Repr

/-- Statements that leave the construct around them. -/
inductive Exit where
  /-- Leaves the innermost loop. -/
  | break_
  /-- Leaves the innermost conditional. -/
  | remit_
  deriving DecidableEq, Repr

mutual

/-- Statements in braces. The line is that of the opening brace. -/
structure Block where
  statements : List Statement
  line : Nat

/-- A named function. Its result type is `void` if it promises no value. -/
structure Function where
  name : String
  result : ValueType
  params : List Param
  body : Block
  line : Nat

/-- What follows the first branch of a conditional. -/
inductive Branches where
  | done
  | elif (condition : Expr) (body : Block) (rest : Branches) (line : Nat)
  | otherwise (body : Block) (line : Nat)

/-- Statements and declarations. -/
inductive Statement where
  | var (decl : VarDecl)
  | func (f : Function)
  | expr (e : Expr) (line : Nat)
  | print (first : Expr) (rest : List Expr) (line : Nat)
  | block (body : Block)
  | cond (condition : Expr) (body : Block) (rest : Branches) (line : Nat)
  | loop (condition : Expr) (body : Block) (line : Nat)
  | count (decl : VarDecl) (condition step : Expr) (body : Block) (line : Nat)
  | return_ (value : Option Expr) (line : Nat)
  | exit (kind : Exit) (line : Nat)

end

/-- The line a statement starts on. -/
def Statement.line : Statement → Nat
  | .var d => d.line
  | .func f => f.line
  | .expr _ n => n
  | .print _ _ n => n
  | .block b => b.line
  | .cond _ _ _ n => n
  | .loop _ _ n => n
  | .count _ _ _ _ n => n
  | .return_ _ n => n
  | .exit _ n => n

/-- A whole program and the name of the file it was read from. -/
structure Program where
  file : String
  statements : List Statement

/-! ## Showing statements -/

/-- The parts of a variable: its name, the word `constant` if it is one, its type. -/
def declared (name : String) (constant : Bool) (type : ValueType) : List Sexpr :=
  .atom name :: (if constant then [.atom "constant"] else []) ++ [.atom type.name]

/-- A variable declaration as an S-expression. -/
def VarDecl.sexpr (d : VarDecl) : Sexpr :=
  .node "var" (declared d.name d.constant d.type ++ (d.initial.map Expr.sexpr).toList)

/-- A parameter as an S-expression, the same as that of a variable without a value. -/
def Param.sexpr (p : Param) : Sexpr := .node "var" (declared p.name p.constant p.type)

/-- How a program writes an exit. -/
def Exit.name : Exit → String
  | .break_ => "break"
  | .remit_ => "remit"

mutual

/-- A block as an S-expression. -/
def Block.sexpr : Block → Sexpr
  | ⟨statements, _⟩ => .node "block" (Statement.sexprs statements)

/-- The branches of a conditional, each one an S-expression of its own. -/
def Branches.sexprs : Branches → List Sexpr
  | .done => []
  | .elif c b rest _ => .node "elif" [c.sexpr, b.sexpr] :: rest.sexprs
  | .otherwise b _ => [.node "else" [b.sexpr]]

/-- A function as an S-expression, its parameters in a list of their own. -/
def Function.sexpr : Function → Sexpr
  | ⟨name, result, params, body, _⟩ =>
    .node "func" [.atom name, .list (params.map Param.sexpr), .atom result.name, body.sexpr]

/-- A statement as S-expressions: one, or for a conditional one for each branch. -/
def Statement.sexpr : Statement → List Sexpr
  | .var d => [d.sexpr]
  | .func f => [f.sexpr]
  | .expr e _ => [e.sexpr]
  | .print e es _ => [.node "print" (e.sexpr :: Expr.sexprs es)]
  | .block b => [b.sexpr]
  | .cond c b rest _ => .node "if" [c.sexpr, b.sexpr] :: rest.sexprs
  | .loop c b _ => [.node "while" [c.sexpr, b.sexpr]]
  | .count d c s b _ => [.node "for" [d.sexpr, c.sexpr, s.sexpr, b.sexpr]]
  | .return_ e _ => [.node "return" (e.map Expr.sexpr).toList]
  | .exit k _ => [.node k.name []]

/-- Statements one after another. -/
def Statement.sexprs : List Statement → List Sexpr
  | [] => []
  | s :: ss => s.sexpr ++ Statement.sexprs ss

end

/-- The text that shows a statement. -/
def Statement.text (s : Statement) : String := Sexpr.spaced s.sexpr

end Scriptling
