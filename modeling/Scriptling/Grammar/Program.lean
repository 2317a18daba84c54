import Scriptling.Grammar.Statement
import Scriptling.Token.Scan

/-!
# Scriptling.Grammar.Program -- reading whole programs

Statements are read one after another. Where one fails, its error is noted and the tokens up to the next
semicolon are dropped, so that one reading finds the errors of all statements.
-/

set_option autoImplicit false

namespace Scriptling.Grammar

/-- The tokens after the next semicolon. -/
def synchronize : List Lexeme → List Lexeme
  | [] => []
  | l :: ts => if l.token = .mark .semicolon then ts else synchronize ts

/-- The statements that could be read and the errors of those that could not, both in order. -/
structure Outcome where
  statements : List Statement
  errors : List SyntaxError

/-- Reads statements from at most `n` tokens, after those read before, the last one first. Every round
reads or drops a token. -/
def statements (lastLine : Nat) :
    Nat → List Statement → List SyntaxError → List Lexeme → Outcome
  | 0, done, errors, _ => ⟨done.reverse, errors.reverse⟩
  | _, done, errors, [] => ⟨done.reverse, errors.reverse⟩
  | n + 1, done, errors, ts =>
    match statement (n + 1) ts with
    | .ok s rest => statements lastLine n (s :: done) errors rest
    -- The statement may fail on its first token, but that token is dropped here.
    | .error e rest => statements lastLine n done (e.locate lastLine :: errors) (synchronize rest)

/-- The line of the last token, or the first line of a text that has none. -/
def lastLine (ts : List Lexeme) : Nat := (ts.getLast?.map Lexeme.line).getD 1

/-- Reads a whole sequence of tokens. -/
def parse (ts : List Lexeme) : Outcome := statements (lastLine ts) ts.length [] [] ts

end Scriptling.Grammar

namespace Scriptling.Program

/-- Reads a program, or all errors in its text. -/
def ofText (source file : String) : Except (List SyntaxError) Program :=
  match Token.ofText source with
  | .error e => .error [e]
  | .ok ts =>
    match Grammar.parse ts with
    | ⟨statements, []⟩ => .ok ⟨file, statements⟩
    | ⟨_, errors⟩ => .error errors

end Scriptling.Program
