import Scriptling.Syntax.Statement
import Scriptling.Grammar.Expression

/-!
# Scriptling.Grammar.Statement -- reading statements

    statement   := name ":" "func" function | name ":" variable | "print" expression ("," expression)* ";"
                 | "if" expression block branches | "while" expression block
                 | "for" name ":" variable expression ";" expression block
                 | "return" expression? ";" | "break" ";" | "remit" ";" | block | expression ";"
    variable    := "constant"? type ("=" expression)? ";"
    function    := "(" (name ":" "constant"? type ("," ...)*)? ")" ("->" type)? block
    branches    := ("elif" expression block)* ("else" block)?
    block       := "{" statement* "}"

As for expressions, the parts take the parsers for expressions and statements as arguments and
`statement` ties the knot, counting down a bound on the tokens left.
-/

set_option autoImplicit false

namespace Scriptling.Grammar

section Parts

variable (expr : Parser Expr) (stmt : Parser Statement) (n : Nat)

/-! ## Declarations -/

/-- Reads a type, which `constant` may precede. -/
def typeSpecifier : Parser (Bool × ValueType) := do
  let constant ← accept (.keyword .constant_)
  let type ← typeName false
  pure (constant, type)

/-- Reads the initial value of a variable, if it has one. -/
def initialValue : Parser (Option Expr) := do
  if ← accept (.assign .plain) then some <$> expr else pure none

/-- Reads what follows the colon of a variable. -/
def variableRest (name : String) (line : Nat) : Parser VarDecl := do
  let (constant, type) ← typeSpecifier
  let initial ← initialValue expr
  let _ ← expect (.mark .semicolon) .semicolonAfterDeclaration
  pure ⟨name, type, constant, initial, line⟩

/-- Reads a variable declaration. -/
def variableDecl : Parser VarDecl := do
  let (name, line) ← identifier
  let _ ← expect (.mark .colon) .colon
  variableRest expr name line

/-- Reads one parameter. -/
def param : Parser Param := do
  let (name, line) ← identifier
  let _ ← expect (.mark .colon) .colonAfterParameter
  let (constant, type) ← typeSpecifier
  pure ⟨name, type, constant, line⟩

/-! ## Blocks -/

/-- Reads statements up to the closing brace. The number bounds the statements. -/
def statementsRest : Nat → Parser (List Statement)
  | 0 => unexpected .closeBrace
  | n + 1 => fun ts =>
    match ts with
    | [] => unexpected .closeBrace []
    | ⟨.mark .closeBrace, _⟩ :: ts => .ok [] ts
    | ts => (do
        let s ← stmt
        let ss ← statementsRest n
        pure (s :: ss) : Parser (List Statement)) ts

/-- Reads a block. -/
def block : Parser Block := do
  let line ← expect (.mark .openBrace) .openBrace
  let statements ← statementsRest stmt n
  pure ⟨statements, line⟩

/-- Reads the result type of a function. Without one, it is `void`. -/
def resultType : Parser ValueType := do
  if ← accept (.mark .arrow) then typeName true else pure .void

/-- Reads what follows `func`. -/
def functionRest (name : String) (line : Nat) : Parser Function := do
  let _ ← expect (.mark .openParen) .openParenAfterFunc
  let params ← list param n
  let result ← resultType
  let body ← block stmt n
  pure ⟨name, result, params, body, line⟩

/-- Reads a name, a colon, and the variable or function that follows. -/
def named : Parser Statement := do
  let (name, line) ← identifier
  let _ ← expect (.mark .colon) .colon
  if ← accept (.keyword .func_) then .func <$> functionRest stmt n name line
  else .var <$> variableRest expr name line

/-! ## Simple statements -/

/-- Reads the expressions after the first one of a `print`. -/
def printRest : Nat → Parser (List Expr)
  | 0 => pure []
  | n + 1 => fun ts =>
    match ts with
    | ⟨.mark .comma, _⟩ :: ts => (do
        let e ← expr
        let es ← printRest n
        pure (e :: es) : Parser (List Expr)) ts
    | ts => .ok [] ts

/-- Reads what follows `print`. -/
def printStatement (line : Nat) : Parser Statement := do
  let first ← expr
  let rest ← printRest expr n
  let _ ← expect (.mark .semicolon) .semicolonAfterPrint
  pure (.print first rest line)

/-- Reads what follows `return`. -/
def returnStatement (line : Nat) : Parser Statement
  | ⟨.mark .semicolon, _⟩ :: ts => .ok (.return_ none line) ts
  | ts => (do
      let e ← expr
      let _ ← expect (.mark .semicolon) .semicolonAfterReturn
      pure (.return_ (some e) line) : Parser Statement) ts

/-- Reads what follows `break` or `remit`. -/
def exitStatement (kind : Exit) (line : Nat) : Parser Statement := do
  let _ ← expect (.mark .semicolon) .semicolon
  pure (.exit kind line)

/-- Reads an expression as a statement. -/
def expressionStatement (line : Nat) : Parser Statement := do
  let e ← expr
  let _ ← expect (.mark .semicolon) .semicolonAfterExpression
  pure (.expr e line)

/-! ## Conditionals and loops -/

/-- Reads the branches after the first one. The number bounds the branches. -/
def branches : Nat → Parser Branches
  | 0 => pure .done
  | k + 1 => fun ts =>
    match ts with
    | ⟨.keyword .elif_, line⟩ :: ts => (do
        let condition ← expr
        let body ← block stmt n
        let rest ← branches k
        pure (.elif condition body rest line) : Parser Branches) ts
    | ⟨.keyword .else_, line⟩ :: ts => (do
        let body ← block stmt n
        pure (.otherwise body line) : Parser Branches) ts
    | ts => .ok .done ts

/-- Reads what follows `if`. -/
def conditional (line : Nat) : Parser Statement := do
  let condition ← expr
  let body ← block stmt n
  let rest ← branches expr stmt n n
  pure (.cond condition body rest line)

/-- Reads what follows `while`. -/
def whileLoop (line : Nat) : Parser Statement := do
  let condition ← expr
  let body ← block stmt n
  pure (.loop condition body line)

/-- Reads what follows `for`. -/
def forLoop (line : Nat) : Parser Statement := do
  let decl ← variableDecl expr
  let condition ← expr
  let _ ← expect (.mark .semicolon) .semicolonAfterCondition
  let step ← expr
  let body ← block stmt n
  pure (.count decl condition step body line)

/-- Reads the statement that the first tokens announce. -/
def statementPart : Parser Statement
  | [] => unexpected .declaration []
  -- A name alone may start an expression; with a colon after it, it cannot.
  | ⟨.identifier x, line⟩ :: ⟨.mark .colon, colonLine⟩ :: ts =>
    named expr stmt n (⟨.identifier x, line⟩ :: ⟨.mark .colon, colonLine⟩ :: ts)
  | ⟨.keyword .print_, line⟩ :: ts => printStatement expr n line ts
  | ⟨.keyword .if_, line⟩ :: ts => conditional expr stmt n line ts
  | ⟨.keyword .elif_, line⟩ :: ts =>
    .error ⟨.danglingBranch .elif_, line⟩ (⟨.keyword .elif_, line⟩ :: ts)
  | ⟨.keyword .else_, line⟩ :: ts =>
    .error ⟨.danglingBranch .else_, line⟩ (⟨.keyword .else_, line⟩ :: ts)
  | ⟨.keyword .while_, line⟩ :: ts => whileLoop expr stmt n line ts
  | ⟨.keyword .for_, line⟩ :: ts => forLoop expr stmt n line ts
  | ⟨.keyword .return_, line⟩ :: ts => returnStatement expr line ts
  | ⟨.keyword .break_, line⟩ :: ts => exitStatement .break_ line ts
  | ⟨.keyword .remit_, line⟩ :: ts => exitStatement .remit_ line ts
  | ⟨.mark .openBrace, line⟩ :: ts =>
    (.block <$> block stmt n : Parser Statement) (⟨.mark .openBrace, line⟩ :: ts)
  | l :: ts => expressionStatement expr l.line (l :: ts)

end Parts

/-- Reads a statement from at most `n` tokens. -/
def statement : Nat → Parser Statement
  | 0 => unexpected .declaration
  | n + 1 => statementPart (expression (n + 1)) (statement n) n

end Scriptling.Grammar
