import Scriptling.Value.Basic

/-!
# Scriptling.Value.Convert -- casts

A cast gives the value of another type that stands for the same thing, if there is one. Numbers, code
points and truth values convert; text does not.
-/

set_option autoImplicit false

namespace Scriptling.Value

/-- Converts a value to another type than its own. -/
def convert? : Value → ValueType → Option Value
  | int w, .float => w.toFloat?.map float
  | float x, .int => (Word.ofFloat? x).map int
  | int w, .char => (Word.toChar? w).map char
  | char c, .int => some (int (Word.ofChar c))
  | bool b, .int => some (int (if b then 1 else 0))
  | _, _ => none

/-- Casts a value to a type. A value of the type stays as it is, and so does a fault. -/
def convert (v : Value) (target : ValueType) : Value :=
  if v.isFault ∨ v.type? = some target then v
  else ofExcept (orFault .notConvertible (v.convert? target))

end Scriptling.Value
