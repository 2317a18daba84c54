import Scriptling.SyntaxError

/-!
# Scriptling.Grammar.Parser -- reading from a sequence of tokens

A parser reads a front part of the tokens. It leaves the rest behind also when it fails, because
recovery continues from there. A parser that fails on a token leaves that token in place.
-/

set_option autoImplicit false

namespace Scriptling.Grammar

/-- A parser of `α`: a result or an error, with the tokens that are left. -/
abbrev Parser (α : Type) := EStateM SyntaxError (List Lexeme) α

/-- Fails on the next token, or on the end of the input, where something else was expected. -/
def unexpected {α : Type} (e : Expected) : Parser α
  | [] => .error ⟨.endOfInput e, 0⟩ []
  | l :: ts => .error ⟨.unexpected e l.token, l.line⟩ (l :: ts)

/-- Reads one given token and gives its line. -/
def expect (t : Token) (e : Expected) : Parser Nat
  | [] => unexpected e []
  | l :: ts => if l.token = t then .ok l.line ts else unexpected e (l :: ts)

/-- Reads one given token if it comes next. -/
def accept (t : Token) : Parser Bool
  | [] => .ok false []
  | l :: ts => if l.token = t then .ok true ts else .ok false (l :: ts)

/-- Reads a name and its line. -/
def identifier : Parser (String × Nat)
  | ⟨.identifier name, line⟩ :: ts => .ok (name, line) ts
  | ts => unexpected .identifier ts

/-- Reads a type. Only the result of a function may be `void`. -/
def typeName (allowVoid : Bool) : Parser ValueType
  | ⟨.typeName t, line⟩ :: ts =>
    if t = .void ∧ ¬ allowVoid then unexpected .type (⟨.typeName t, line⟩ :: ts) else .ok t ts
  | ts => unexpected .type ts

/-- Reads the items of a list in parentheses after the first one, and the closing parenthesis. The
number bounds the items; there are never more of them than tokens. -/
def listRest {α : Type} (item : Parser α) : Nat → Parser (List α)
  | 0 => unexpected .commaOrCloseParen
  | n + 1 => fun ts =>
    match ts with
    | ⟨.mark .comma, _⟩ :: ts => (do
        let x ← item
        let xs ← listRest item n
        pure (x :: xs) : Parser (List α)) ts
    | ⟨.mark .closeParen, _⟩ :: ts => .ok [] ts
    | ts => unexpected .commaOrCloseParen ts

/-- Reads a list with commas between its items, and the closing parenthesis after it. -/
def list {α : Type} (item : Parser α) (n : Nat) : Parser (List α)
  | ⟨.mark .closeParen, _⟩ :: ts => .ok [] ts
  | ts => (do
      let x ← item
      let xs ← listRest item n
      pure (x :: xs) : Parser (List α)) ts

end Scriptling.Grammar
