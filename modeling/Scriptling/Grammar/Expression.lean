import Scriptling.Syntax.Expr
import Scriptling.Grammar.Parser

/-!
# Scriptling.Grammar.Expression -- reading expressions

The grammar of expressions, from the tightest part to the loosest:

    primary    := literal | name | name "(" list ")" | "(" expression ")"
                | "cast" "<" type ">" "(" expression ")"
    unary      := ("-" | "!" | "~") unary | primary
    tier k     := tier (k-1) (operator of tier k, tier (k-1))*        tier 0 := unary
    expression := tier 7 (assignment operator, expression)?

Every part takes the parser for whole expressions as an argument, and `expression` ties the knot. It
counts down a number that bounds the tokens left: a part asks for a whole expression only after it has
read a token, so the number never runs out before the tokens do.
-/

set_option autoImplicit false

namespace Scriptling.Grammar

/-- Reads what follows `cast`. -/
def castRest (inner : Parser Expr) (line : Nat) : Parser Expr := do
  let _ ← expect (.operator (.comparison .less)) .lessAfterCast
  let target ← typeName false
  let _ ← expect (.operator (.comparison .greater)) .greaterAfterType
  let _ ← expect (.mark .openParen) .openParenBeforeOperand
  let operand ← inner
  let _ ← expect (.mark .closeParen) .closeParenAfterOperand
  pure (.cast target operand line)

/-- Reads an expression without operators outside its brackets. -/
def primary (inner : Parser Expr) (n : Nat) : Parser Expr
  | ⟨.identifier f, line⟩ :: ⟨.mark .openParen, _⟩ :: ts => (do
      let arguments ← list inner n
      pure (.call f arguments line) : Parser Expr) ts
  | ⟨.identifier x, line⟩ :: ts => .ok (.name x line) ts
  | ⟨.mark .openParen, line⟩ :: ts => (do
      let e ← inner
      let _ ← expect (.mark .closeParen) .closeParen
      pure (.group e line) : Parser Expr) ts
  | ⟨.keyword .cast_, line⟩ :: ts => castRest inner line ts
  | l :: ts =>
    match Literal.ofToken? l.token with
    | some v => .ok (.literal v l.line) ts
    | none => unexpected .expression (l :: ts)
  | [] => unexpected .expression []

/-- Reads prefix operators and the primary they stand before. -/
def unary (inner : Parser Expr) (n : Nat) : Parser Expr
  | [] => primary inner n []
  | l :: ts =>
    match l.token.unary? with
    | some op =>
      match unary inner n ts with
      | .ok e rest => .ok (.unary op e l.line) rest
      | .error e rest => .error e rest
    | none => primary inner n (l :: ts)

/-- Joins operands to the left one as long as operators of the tier follow. A node has the line of its
leftmost operand. -/
def chain (operand : Parser Expr) (tier : Nat) : Nat → Expr → Parser Expr
  | 0, left => pure left
  | n + 1, left => fun ts =>
    match ts with
    | ⟨.operator op, line⟩ :: rest =>
      if op.tier = tier then
        (do
          let right ← operand
          chain operand tier n (.binary op left right left.line) : Parser Expr) rest
      else .ok left (⟨.operator op, line⟩ :: rest)
    | ts => .ok left ts

/-- Reads an expression whose operators outside brackets are of the given tier or tighter. -/
def tier (inner : Parser Expr) (n : Nat) : Nat → Parser Expr
  | 0 => unary inner n
  | k + 1 => do
    let left ← tier inner n k
    chain (tier inner n k) (k + 1) n left

/-- Reads an assignment to a variable, or an expression without one. Anything else before an assignment
operator is an error of that operator. -/
def assignment (inner : Parser Expr) (n : Nat) : Parser Expr := do
  let target ← tier inner n BinaryOperator.loosest
  fun ts =>
    match ts with
    | ⟨.assign op, opLine⟩ :: rest =>
      match target with
      | .name x line => (do
          let value ← inner
          pure (.assign op x value line) : Parser Expr) rest
      | _ => .error ⟨.invalidTarget, opLine⟩ (⟨.assign op, opLine⟩ :: rest)
    | ts => .ok target ts

/-- Reads an expression from at most `n` tokens. -/
def expression : Nat → Parser Expr
  | 0 => unexpected .expression
  | n + 1 => assignment (expression n) n

end Scriptling.Grammar
