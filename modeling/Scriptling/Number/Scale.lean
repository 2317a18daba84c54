/-!
# Scriptling.Number.Scale -- powers of two and of ten

Floats are whole numbers scaled by a power of two and numerals are whole numbers scaled by a power of
ten; both powers may be negative. Exact arithmetic on them stays within the natural numbers: `n · b ^ e`
is the ratio of `n * scale b e` to `scale b (-e)`, and one of the two factors is always one.
-/

set_option autoImplicit false

namespace Scriptling

/-- The power `base ^ e` as a whole factor, one where the exponent is negative. -/
def scale (base : Nat) (e : Int) : Nat := Nat.pow base e.toNat

/-- A factor that an exponent below zero leaves out. -/
theorem scale_of_nonpos {base : Nat} {e : Int} (h : e ≤ 0) : scale base e = 1 := by
  simp [scale, Int.toNat_of_nonpos h]

/-- A ratio of scaled numbers never divides by zero. -/
theorem scale_pos {base : Nat} (h : 0 < base) (e : Int) : 0 < scale base e := Nat.pow_pos h

end Scriptling
