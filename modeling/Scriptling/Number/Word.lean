import Scriptling.Number.Digits

/-!
# Scriptling.Number.Word -- the 64-bit integers of the language

An `int` is a signed 64-bit word. Its arithmetic is never modular: an operation is carried out on
whole numbers and its result is kept only if it fits again, so overflow is a case of its own and not
a wrong number. `ofInt?` is that test, and every checked operation of the language goes through it.
-/

set_option autoImplicit false

namespace Scriptling

/-- The integers of the language. -/
abbrev Word := Int64

namespace Word

/-- The word that stands for a whole number, if the number lies in the signed 64-bit range. -/
def ofInt? (i : Int) : Option Word :=
  if Int64.minValue.toInt ≤ i ∧ i ≤ Int64.maxValue.toInt then some (Int64.ofInt i) else none

/-- The code point of a character. -/
def ofChar (c : Char) : Word := Int64.ofInt c.toNat

/-- The character whose code point the word is. Surrogates and numbers beyond the last code point
have none. -/
def toChar? (w : Word) : Option Char :=
  if w.toInt.toNat.isValidChar ∧ 0 ≤ w.toInt then some (Char.ofNat w.toInt.toNat) else none

/-- The word as the amount of a shift: there are 64 places to shift by, `0` to `63`. -/
def shiftAmount? (w : Word) : Option Word :=
  if 0 ≤ w.toInt ∧ w.toInt < 64 then some w else none

/-- The word as the language writes it: in decimal, a minus sign in front of negative ones. -/
def text (w : Word) : String :=
  if w.toInt < 0 then String.ofList ('-' :: Digits.write w.toInt.natAbs)
  else String.ofList (Digits.write w.toInt.natAbs)

/-- Reads a run of digits. There is no word for the empty run or beyond the range. -/
def ofDigits? (cs : List Char) : Option Word := (Digits.value? cs).bind fun n => ofInt? n

/-- Reads a decimal numeral with an optional sign. -/
def ofChars? : List Char → Option Word
  | '-' :: cs => (Digits.value? cs).bind fun n => ofInt? (-n)
  | '+' :: cs => ofDigits? cs
  | cs => ofDigits? cs

/-- A word that `ofInt?` makes stands for the number it was made from. -/
theorem toInt_of_ofInt? {i : Int} {w : Word} (h : ofInt? i = some w) : w.toInt = i := by
  unfold ofInt? at h
  split at h
  · rename_i hr
    cases h
    exact Int64.toInt_ofInt_of_le hr.1 (Int.lt_add_one_of_le hr.2)
  · cases h

end Word

end Scriptling
