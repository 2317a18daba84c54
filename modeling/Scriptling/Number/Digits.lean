/-!
# Scriptling.Number.Digits -- decimal numerals as characters

The language writes every number in decimal. This module reads a run of digits as the natural number
it denotes and counts the digits of a number; the integer and float readers share it, so that both
accept the same ten characters and no other.
-/

set_option autoImplicit false

namespace Scriptling.Digits

/-- The value of one digit character. -/
def valueOf (c : Char) : Nat := c.toNat - '0'.toNat

/-- The number a run of digits denotes, the most significant first. The empty run is zero. -/
def value (cs : List Char) : Nat := cs.foldl (fun n c => 10 * n + valueOf c) 0

/-- The number a text denotes that is made of digits alone, of at least one. -/
def value? (cs : List Char) : Option Nat :=
  if cs.isEmpty || cs.any (fun c => !c.isDigit) then none else some (value cs)

/-- How many digits the shortest numeral of `n` has; zero has one. -/
def count (n : Nat) : Nat := (Nat.toDigits 10 n).length

/-- The numeral of a natural number. -/
def write (n : Nat) : List Char := Nat.toDigits 10 n

/-- No digits denote zero. -/
theorem value_nil : value [] = 0 := rfl

/-- Appending a digit multiplies by ten and adds it. -/
theorem value_concat (cs : List Char) (c : Char) :
    value (cs ++ [c]) = 10 * value cs + valueOf c := by
  simp [value]

end Scriptling.Digits
