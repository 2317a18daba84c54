/-!
# Scriptling.Syntax.Sexpr -- bracketed lists of words

Syntax trees are shown as S-expressions: a word, or a bracketed list of S-expressions with single spaces
between them. Trees are turned into this form first and into text second, so brackets and spaces are
written in one place.
-/

set_option autoImplicit false

namespace Scriptling

/-- A word or a list of S-expressions. -/
inductive Sexpr where
  | atom (text : String)
  | list (items : List Sexpr)

namespace Sexpr

mutual

/-- The text of an S-expression. -/
def text : Sexpr → String
  | atom w => w
  | list items => "(" ++ spaced items ++ ")"

/-- The texts of several S-expressions, a space between any two. -/
def spaced : List Sexpr → String
  | [] => ""
  | [s] => s.text
  | s :: t :: rest => s.text ++ " " ++ spaced (t :: rest)

end

/-- A list that starts with a word. -/
def node (head : String) (items : List Sexpr) : Sexpr := list (atom head :: items)

end Sexpr

end Scriptling
