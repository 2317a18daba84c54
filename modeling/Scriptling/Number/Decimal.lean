import Scriptling.Number.Digits
import Scriptling.Number.Binary64

/-!
# Scriptling.Number.Decimal -- floats read from text

A decimal numeral is a whole number of digits scaled by a power of ten. `ofChars?` reads the written
form, `toFloat` gives the nearest float. Exponents far outside the range of floats are decided before
any power of ten is formed, so that a short numeral never costs more than its own length.
-/

set_option autoImplicit false

namespace Scriptling

/-- The number `digits · 10 ^ exponent`. -/
structure Decimal where
  digits : Nat
  exponent : Int
  deriving DecidableEq, Repr

namespace Decimal

/-- The float nearest to `± d`. A number of at least `10 ^ 310` is infinite and one below `10 ^ -324`
is less than half the smallest float. -/
def toFloat (negative : Bool) (d : Decimal) : Float :=
  -- The number lies below `10 ^ magnitude` and not below a tenth of it.
  let magnitude := d.exponent + Digits.count d.digits
  if d.digits = 0 || magnitude < -323 then Binary64.ofMagnitude negative 0
  else if 310 < magnitude then Binary64.infinity negative
  else Binary64.ofRatio negative (d.digits * scale 10 d.exponent) (scale 10 (-d.exponent))

/-- Reads what may follow the digits of a numeral: nothing, or `e` and a signed whole number. -/
def exponent? : List Char → Option Int
  | [] => some 0
  | c :: cs =>
    if c = 'e' || c = 'E' then
      match cs with
      | '-' :: ds => (Digits.value? ds).map fun n => -(n : Int)
      | '+' :: ds => (Digits.value? ds).map fun n => (n : Int)
      | ds => (Digits.value? ds).map fun n => (n : Int)
    else none

/-- Reads an unsigned numeral: digits with at most one point among them, then an optional exponent. -/
def ofChars? (cs : List Char) : Option Decimal :=
  let whole := cs.takeWhile Char.isDigit
  let (fraction, rest) := match cs.dropWhile Char.isDigit with
    | '.' :: r => (r.takeWhile Char.isDigit, r.dropWhile Char.isDigit)
    | r => ([], r)
  if whole.isEmpty && fraction.isEmpty then none
  else (exponent? rest).map fun e => ⟨Digits.value (whole ++ fraction), e - fraction.length⟩

end Decimal

namespace Binary64

/-- Reads an unsigned float: a numeral, or the name of infinity or of not-a-number in any case. -/
def ofUnsigned? (negative : Bool) (cs : List Char) : Option Float :=
  match cs.map Char.toLower with
  | ['i', 'n', 'f'] | ['i', 'n', 'f', 'i', 'n', 'i', 't', 'y'] => some (infinity negative)
  | ['n', 'a', 'n'] => some nan
  | _ => (Decimal.ofChars? cs).map (Decimal.toFloat negative)

/-- Reads a float with an optional sign. -/
def ofChars? : List Char → Option Float
  | '-' :: cs => ofUnsigned? true cs
  | '+' :: cs => ofUnsigned? false cs
  | cs => ofUnsigned? false cs

end Binary64

end Scriptling
