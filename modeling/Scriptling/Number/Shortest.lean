import Scriptling.Number.Decimal

/-!
# Scriptling.Number.Shortest -- the text of a float

A float is written with the fewest digits that read back as the same float, and of the numerals with
so few digits the nearest one. Which decimals read back is decided exactly: they fill the interval
between the midpoints to the two neighbouring floats, ends included when the significand is even.

* `ReadsBack` -- the interval, as a test in whole numbers.
* `shortest` -- the fewest digits inside it.
* `Style` -- where the point goes; `text` is the language's own choice of it.
-/

set_option autoImplicit false

namespace Scriptling.Binary64

/-- Whether `d` rounds to the positive float `m · 2 ^ e`. The bounds are counted in quarters of
`2 ^ e`: half a unit up, half a unit down, and only a quarter down where the floats below lie twice as
dense. -/
def ReadsBack (m : Nat) (e : Int) (d : Decimal) : Bool :=
  -- Below a power of two the floats lie twice as dense, except below the smallest of them.
  let low := if m = fractionCount ∧ e ≠ -1074 then 4 * m - 1 else 4 * m - 2
  let high := 4 * m + 2
  let value := d.digits * scale 10 d.exponent * scale 2 (2 - e)
  let unit := scale 10 (-d.exponent) * scale 2 (e - 2)
  if m % 2 = 0 then low * unit ≤ value ∧ value ≤ high * unit
  else low * unit < value ∧ value < high * unit

/-- The power of ten of the leading digit of `m · 2 ^ e`, for positive `m`: the number is shifted up
by 330 places, where every float is whole and its digits can be counted. -/
def leadingPlace (m : Nat) (e : Int) : Int :=
  Digits.count (m * scale 2 e * scale 10 330 / scale 2 (-e)) - 331

/-- The two neighbours of `m · 2 ^ e` among the multiples of `10 ^ k`, the nearer one first; a tie
puts the larger first. -/
def neighbours (m : Nat) (e k : Int) : List Decimal :=
  let num := m * scale 2 e * scale 10 (-k)
  let den := scale 2 (-e) * scale 10 k
  let below := num / den
  if 2 * (num % den) < den then [⟨below, k⟩, ⟨below + 1, k⟩] else [⟨below + 1, k⟩, ⟨below, k⟩]

/-- The number `m · 2 ^ e` itself, all its digits. -/
def exact (m : Nat) (e : Int) : Decimal :=
  if 0 ≤ e then ⟨m * scale 2 e, 0⟩ else ⟨m * scale 5 (-e), e⟩

/-- Moves trailing zeros of the digits into the exponent. -/
def normalize (d : Decimal) : Decimal :=
  if h : d.digits ≠ 0 ∧ d.digits % 10 = 0 then normalize ⟨d.digits / 10, d.exponent + 1⟩ else d
termination_by d.digits
decreasing_by exact Nat.div_lt_self (Nat.pos_of_ne_zero h.1) (by decide)

/-- The fewest digits that read back as `m · 2 ^ e`, for positive `m`. Grids of ever finer powers of
ten are tried below the leading place; if none of the two neighbours on a grid reads back, no point of
it does. -/
def shortest (m : Nat) (e : Int) : Decimal :=
  let place := leadingPlace m e
  -- Seventeen digits always suffice; the exact number only completes the definition.
  let found := (List.range 17).findSome? fun (i : Nat) =>
    (neighbours m e (place - i)).find? (ReadsBack m e)
  normalize (found.getD (exact m e))

/-- How digits are laid out as text: which leading places are written positionally, and what stands
in front of the exponent of the others. -/
structure Style where
  lowestPlace : Int
  highestPlace : Int
  exponentMark : Char

/-- Digits with the point after the digit of place zero; both sides of it are never empty. -/
def positional (digits : List Char) (place : Int) : List Char :=
  if place < 0 then
    ['0', '.'] ++ List.replicate (-place - 1).toNat '0' ++ digits
  else
    let whole := digits.take (place.toNat + 1)
    let fraction := digits.drop (place.toNat + 1)
    whole ++ List.replicate (place.toNat + 1 - whole.length) '0' ++ ['.'] ++
      (if fraction.isEmpty then ['0'] else fraction)

/-- One digit, the others behind a point if there are any, and the place of the first. -/
def scientific (mark : Char) (digits : List Char) (place : Int) : List Char :=
  let fraction := digits.drop 1
  digits.take 1 ++ (if fraction.isEmpty then [] else '.' :: fraction) ++ [mark] ++
    (if place < 0 then '-' :: Digits.write place.natAbs else Digits.write place.natAbs)

/-- A decimal laid out in a style. -/
def Style.write (s : Style) (d : Decimal) : List Char :=
  let digits := Digits.write d.digits
  let place : Int := d.exponent + digits.length - 1
  if s.lowestPlace ≤ place ∧ place ≤ s.highestPlace then positional digits place
  else scientific s.exponentMark digits place

/-- Floats from `0.0001` up to `10 ^ 16` are written positionally. -/
def style : Style := ⟨-4, 15, 'e'⟩

/-- The text of a float. -/
def text (x : Float) : String :=
  String.ofList <| match read x with
  | .nan => ['N', 'a', 'N']
  | .infinite negative => (if negative then ['-'] else []) ++ ['i', 'n', 'f']
  | .finite negative m e =>
    (if negative then ['-'] else []) ++
      (if m = 0 then positional ['0'] 0 else style.write (shortest m e))

end Scriptling.Binary64
