import Scriptling.Number.Scale

/-!
# Scriptling.Number.Binary64 -- floats as exact numbers

A finite float is `± significand · 2 ^ exponent` with whole `significand` and `exponent`. This module
reads a float as that exact number and rounds an exact ratio back to the nearest float. Everything the
language does with floats beyond `+ - * /` is stated through these two directions, in whole-number
arithmetic: reading literals, writing shortest text, truncating to an integer, and remainders.

* `read` -- the exact number a float stands for.
* `ofRatio` -- the nearest float to a ratio of natural numbers, ties to the even significand.
* `truncate?`, `remainder` -- operations that need no rounding at all.
-/

set_option autoImplicit false

namespace Scriptling.Binary64

/-- What a float stands for. A finite one is `± significand · 2 ^ exponent`; zero keeps its sign. -/
inductive Reading where
  | nan
  | infinite (negative : Bool)
  | finite (negative : Bool) (significand : Nat) (exponent : Int)
  deriving DecidableEq, Repr

/-- How many fractions share one exponent: `2 ^ 52`. -/
def fractionCount : Nat := 4503599627370496

/-- The bit of the sign: `2 ^ 63`. -/
def signBit : Nat := 9223372036854775808

/-- Takes the 64 bits of a float apart: a sign, 11 bits of exponent, 52 bits of fraction. The lowest
exponent field holds the numbers without a leading one, the highest the infinities and not-a-number. -/
def read (x : Float) : Reading :=
  let bits : Nat := x.toBits.toNat
  let negative : Bool := decide (bits / signBit % 2 = 1)
  let field : Nat := bits / fractionCount % 2048
  let fraction : Nat := bits % fractionCount
  if field = 2047 then
    if fraction = 0 then .infinite negative else .nan
  else if field = 0 then .finite negative fraction (-1074)
  else .finite negative (fractionCount + fraction) (field - 1075)

/-- The float that is not a number. -/
def nan : Float := Float.ofBits 0x7ff8000000000000

/-- The magnitude of infinity: the highest exponent field, no fraction. -/
def infiniteMagnitude : Nat := 2047 * fractionCount

/-- The float with the given sign and the given exponent and fraction bits, read as one number. The
floats of one sign are numbered by magnitude in this way, so rounding up may carry into the exponent,
and what lies past the last finite float is infinite. -/
def ofMagnitude (negative : Bool) (magnitude : Nat) : Float :=
  let magnitude := min magnitude infiniteMagnitude
  Float.ofBits (UInt64.ofNat (if negative then signBit + magnitude else magnitude))

/-- Infinity of the given sign. -/
def infinity (negative : Bool) : Float := ofMagnitude negative infiniteMagnitude

/-- The whole number nearest to `num / den`; a tie goes to the even one. -/
def halfEven (num den : Nat) : Nat :=
  let q := num / den
  let r := num % den
  if 2 * r < den then q else if den < 2 * r then q + 1 else q + q % 2

/-- The largest `k` with `2 ^ k ≤ num / den`, for a positive ratio. -/
def floorLog2 (num den : Nat) : Int :=
  -- The logarithms of both sides are rounded down, so `k` is right or one too large.
  let k : Int := Nat.log2 num - Nat.log2 den
  if num * scale 2 (-k) < den * scale 2 k then k - 1 else k

/-- The float nearest to `± num / den`; a tie goes to the even significand. The significand has 53
bits unless the exponent would fall below `-1074`. -/
def ofRatio (negative : Bool) (num den : Nat) : Float :=
  if num = 0 then ofMagnitude negative 0
  else
    -- The unit of the last place; among the smallest floats it stops shrinking.
    let e := max (floorLog2 num den - 52) (-1074)
    let significand := halfEven (num * scale 2 (-e)) (den * scale 2 e)
    ofMagnitude negative ((e + 1074).toNat * fractionCount + significand)

/-- The float nearest to `± significand · 2 ^ exponent`. -/
def ofDyadic (negative : Bool) (significand : Nat) (exponent : Int) : Float :=
  ofRatio negative (significand * scale 2 exponent) (scale 2 (-exponent))

/-- The float nearest to a whole number. -/
def ofInt (i : Int) : Float := ofRatio (decide (i < 0)) i.natAbs 1

/-- The whole part of a finite float, rounded toward zero. -/
def truncate? (x : Float) : Option Int :=
  match read x with
  | .finite negative significand exponent =>
    let magnitude : Nat := significand * scale 2 exponent / scale 2 (-exponent)
    some (if negative then -magnitude else magnitude)
  | _ => none

/-- The remainder of the division that rounds its quotient toward zero. It has the sign of `x` and is
exact: both operands are whole multiples of the smaller of their two units, and so is the result. -/
def remainder (x y : Float) : Float :=
  match read x, read y with
  | .finite negative m e, .finite _ m' e' =>
    if m' = 0 then nan
    else
      let unit := min e e'
      ofDyadic negative (m * scale 2 (e - unit) % (m' * scale 2 (e' - unit))) unit
  | .finite _ _ _, .infinite _ => x
  | _, _ => nan

end Scriptling.Binary64
