import Scriptling.SyntaxError
import Scriptling.Token.Rule

/-!
# Scriptling.Token.Scan -- from text to tokens

The text is cut from left to right into lexemes, each the longest that any rule allows. What is cut off
is never looked at again, and a line is counted for every line break cut off, so the line of a token is
one more than the number of line breaks before it.
-/

set_option autoImplicit false

namespace Scriptling.Token

/-- The tokens of a text that starts on `line`, after those in `done`, the last one first. -/
def scan (line : Nat) (done : List Lexeme) : List Char → Except SyntaxError (List Lexeme)
  | [] => .ok done.reverse
  | c :: cs =>
    match Rule.munch (c :: cs) with
    | none => .error ⟨.unrecognized (String.ofList ((c :: cs).take (Rule.blame (c :: cs)))), line⟩
    | some (rule, n) =>
      let text := (c :: cs).take n
      -- Written so that at least one character is gone, whatever `n` is.
      let rest := cs.drop (n - 1)
      if rule.isSkipped then scan (line + text.count '\n') done rest
      else
        match rule.token? text with
        | some t => scan (line + text.count '\n') (⟨t, line⟩ :: done) rest
        | none => .error ⟨.unrecognized (String.ofList text), line⟩
termination_by cs => cs.length
decreasing_by all_goals simp only [List.length_drop, List.length_cons]; omega

/-- The tokens of a text, or the first place that has none. -/
def ofText (source : String) : Except SyntaxError (List Lexeme) := scan 1 [] source.toList

end Scriptling.Token
