import Scriptling.Number.Word
import Scriptling.Number.Binary64

/-!
# Scriptling.Number.Convert -- between words and floats

Neither direction rounds to a different number. A float becomes a word by dropping its fraction, and only
if what remains fits. A word becomes a float only if its size says that the float is its own: that it
denotes the word, and that no other whole number is rounded to it.
-/

set_option autoImplicit false

namespace Scriptling.Word

/-- The largest magnitude up to which every whole number has a float to which no other is rounded:
`2 ^ 53 - 1`. -/
def exactLimit : Nat := 9007199254740991

/-- The float that stands for the same number as a word. -/
def toFloat? (w : Word) : Option Float :=
  if w.toInt.natAbs ≤ exactLimit then some (Binary64.ofInt w.toInt) else none

/-- The word that a float becomes when its fraction is dropped. -/
def ofFloat? (x : Float) : Option Word := (Binary64.truncate? x).bind ofInt?

end Scriptling.Word
