import Scriptling.Number.Shortest
import Scriptling.Proofs.Number.Floats

/-!
# Scriptling.Proofs.Number.Intervals -- the numbers that round to a float

Each float that is positive and finite has an interval of numbers that round to it, and the shortest decimal
lies in it (`rounds_shortest`). The intervals of two floats have no number in common: neighbouring ones meet in
one end, and there it belongs to the even one of the two significands. So a number in an interval determines
the float (`Rounds.unique`).
-/

set_option autoImplicit false

namespace Scriptling

/-- The number that a decimal stands for. -/
def Decimal.value (d : Decimal) : ℚ := d.digits * 10 ^ d.exponent

/-- A power with an exponent that may be negative, as a ratio of whole numbers. -/
theorem scale_eq_zpow_mul {base : Nat} (hbase : 0 < base) (e : Int) :
    (scale base e : ℚ) = base ^ e * scale base (-e) := by
  have hne : (base : ℚ) ≠ 0 := Nat.cast_ne_zero.2 hbase.ne'
  have hpow {n : Int} (hn : 0 ≤ n) : (scale base n : ℚ) = base ^ n := by
    obtain ⟨k, rfl⟩ := Int.eq_ofNat_of_zero_le hn
    simp [scale]
  rcases le_total 0 e with he | he
  · rw [hpow he, scale_of_nonpos (Int.neg_nonpos_of_nonneg he), Nat.cast_one, mul_one]
  · rw [hpow (Int.neg_nonneg_of_nonpos he), scale_of_nonpos he, ← zpow_add₀ hne, add_neg_cancel,
      zpow_zero, Nat.cast_one]

namespace Binary64

/-! ## The interval of a float -/

/-- The lower end of the interval, in quarters of the unit. -/
def lowEnd (m : Nat) (e : Int) : Nat :=
  if m = fractionCount ∧ e ≠ -1074 then 4 * m - 1 else 4 * m - 2

/-- The number lies in the interval of those that round to `m · 2 ^ e`. The ends belong to it if the
significand is even. -/
structure Rounds (m : Nat) (e : Int) (v : ℚ) : Prop where
  low : lowEnd m e * 2 ^ (e - 2) ≤ v
  high : v ≤ (4 * m + 2 : Nat) * 2 ^ (e - 2)
  odd : m % 2 ≠ 0 → lowEnd m e * 2 ^ (e - 2) < v ∧ v < (4 * m + 2 : Nat) * 2 ^ (e - 2)

section ReadsBack

variable (m : Nat) (e : Int) (d : Decimal)

/-- Both sides of the test are compared after they are multiplied with the same denominator. -/
theorem exists_denominator : ∃ c : ℚ, 0 < c ∧
    ((d.digits * scale 10 d.exponent * scale 2 (2 - e) : Nat) : ℚ) = d.value * c ∧
    ∀ a : Nat, ((a * (scale 10 (-d.exponent) * scale 2 (e - 2)) : Nat) : ℚ) = a * 2 ^ (e - 2) * c := by
  refine ⟨scale 10 (-d.exponent) * scale 2 (2 - e), ?_, ?_, fun a => ?_⟩
  · have hten : 0 < scale 10 (-d.exponent) := scale_pos (by decide) _
    have htwo : 0 < scale 2 (2 - e) := scale_pos (by decide) _
    positivity
  · push_cast
    rw [scale_eq_zpow_mul (show 0 < 10 by decide) d.exponent, Decimal.value]
    push_cast
    ring
  · push_cast
    rw [scale_eq_zpow_mul (show 0 < 2 by decide) (e - 2), neg_sub]
    push_cast
    ring

theorem readsBack_iff : ReadsBack m e d = true ↔ Rounds m e d.value := by
  obtain ⟨c, hc, hvalue, hunit⟩ := exists_denominator e d
  have hle (a : Nat) : a * (scale 10 (-d.exponent) * scale 2 (e - 2)) ≤
      d.digits * scale 10 d.exponent * scale 2 (2 - e) ↔ a * 2 ^ (e - 2) ≤ d.value := by
    rw [← Nat.cast_le (α := ℚ), hvalue, hunit, mul_le_mul_iff_of_pos_right hc]
  have hge (a : Nat) : d.digits * scale 10 d.exponent * scale 2 (2 - e) ≤
      a * (scale 10 (-d.exponent) * scale 2 (e - 2)) ↔ d.value ≤ a * 2 ^ (e - 2) := by
    rw [← Nat.cast_le (α := ℚ), hvalue, hunit, mul_le_mul_iff_of_pos_right hc]
  have hlow : (if m = fractionCount ∧ e ≠ -1074 then 4 * m - 1 else 4 * m - 2) = lowEnd m e := rfl
  unfold ReadsBack
  dsimp only
  rw [hlow]
  split_ifs with heven
  · rw [decide_eq_true_iff, hle, hge]
    exact ⟨fun h => ⟨h.1, h.2, fun hodd => absurd heven hodd⟩, fun h => ⟨h.low, h.high⟩⟩
  · rw [decide_eq_true_iff, ← not_le, ← not_le, hge, hle, not_le, not_le]
    exact ⟨fun h => ⟨h.1.le, h.2.le, fun _ => h⟩, fun h => h.odd heven⟩

end ReadsBack

/-! ## Intervals are apart -/

section Unique

variable {m m' : Nat} {e e' : Int} {v : ℚ}

theorem lowEnd_bounds (m : Nat) (e : Int) : 4 * m - 2 ≤ lowEnd m e ∧ lowEnd m e ≤ 4 * m - 1 := by
  unfold lowEnd
  split <;> omega

theorem unit_pos (e : Int) : (0 : ℚ) < 2 ^ (e - 2) := zpow_pos (by norm_num) _

theorem Rounds.pos (h : Rounds m e v) (hm : 0 < m) : 0 < v := by
  have hlow : 0 < lowEnd m e := by
    have := (lowEnd_bounds m e).1
    omega
  have hunit := unit_pos e
  exact lt_of_lt_of_le (by positivity) h.low

/-- Floats with one exponent do not share a number. -/
theorem Rounds.le_of_eq (h : Rounds m e v) (h' : Rounds m' e v) : m ≤ m' := by
  by_contra hlt
  have hlow := (lowEnd_bounds m e).1
  have hends : lowEnd m e ≤ 4 * m' + 2 := by
    have := h.low.trans h'.high
    rw [mul_le_mul_iff_of_pos_right (unit_pos e)] at this
    exact_mod_cast this
  -- They are neighbours that meet in one end, and one of them is odd.
  obtain rfl : m = m' + 1 := by omega
  by_cases hodd : (m' + 1) % 2 = 0
  · have := h.low.trans_lt (h'.odd (by omega)).2
    rw [mul_lt_mul_iff_of_pos_right (unit_pos e)] at this
    have : lowEnd (m' + 1) e < 4 * m' + 2 := by exact_mod_cast this
    omega
  · have := (h.odd hodd).1.trans_le h'.high
    rw [mul_lt_mul_iff_of_pos_right (unit_pos e)] at this
    have : lowEnd (m' + 1) e < 4 * m' + 2 := by exact_mod_cast this
    omega

/-- Numbers that round to a float of a higher exponent are larger. -/
theorem Rounds.exponent_le (h : Rounds m e v) (h' : Rounds m' e' v) (hm : Canonical m e)
    (hm' : Canonical m' e') : e' ≤ e := by
  by_contra hlt
  have hlt : e < e' := not_le.1 hlt
  have hsignificand := hm.lt
  have hlowest := hm.lowest
  have hnormal : fractionCount ≤ m' := by
    by_contra hsub
    have := hm'.subnormal (by omega)
    omega
  have hlow : 4 * fractionCount - 1 ≤ lowEnd m' e' := by
    unfold lowEnd
    split_ifs <;> omega
  have hunits : (2 : ℚ) * 2 ^ (e - 2) ≤ 2 ^ (e' - 2) := by
    rw [← zpow_one_add₀ (by norm_num)]
    exact zpow_le_zpow_right₀ (by norm_num) (by omega)
  have hunit := unit_pos e
  -- What rounds to the higher one is at least the lower end of the least significand there.
  have hbound : ((8 * fractionCount - 2 : Nat) : ℚ) * 2 ^ (e - 2) ≤ v := by
    calc ((8 * fractionCount - 2 : Nat) : ℚ) * 2 ^ (e - 2)
        = (4 * fractionCount - 1 : Nat) * (2 * 2 ^ (e - 2)) := by
          have : 8 * fractionCount - 2 = (4 * fractionCount - 1) * 2 := by decide
          rw [this]
          push_cast
          ring
      _ ≤ lowEnd m' e' * 2 ^ (e' - 2) := by
          have : ((4 * fractionCount - 1 : Nat) : ℚ) ≤ lowEnd m' e' := by exact_mod_cast hlow
          gcongr
      _ ≤ v := h'.low
  by_cases hodd : m % 2 = 0
  · have := hbound.trans h.high
    rw [mul_le_mul_iff_of_pos_right hunit] at this
    have : 8 * fractionCount - 2 ≤ 4 * m + 2 := by exact_mod_cast this
    unfold fractionCount at *
    omega
  · have := hbound.trans_lt (h.odd hodd).2
    rw [mul_lt_mul_iff_of_pos_right hunit] at this
    have : 8 * fractionCount - 2 < 4 * m + 2 := by exact_mod_cast this
    omega

/-- A number rounds to one float only. -/
theorem Rounds.unique (h : Rounds m e v) (h' : Rounds m' e' v) (hm : Canonical m e)
    (hm' : Canonical m' e') : m = m' ∧ e = e' := by
  obtain rfl : e = e' := le_antisymm (h'.exponent_le h hm' hm) (h.exponent_le h' hm hm')
  exact ⟨le_antisymm (h.le_of_eq h') (h'.le_of_eq h), rfl⟩

end Unique

/-! ## The shortest decimal -/

theorem value_normalize (d : Decimal) : (normalize d).value = d.value := by
  induction d using normalize.induct with
  | case1 d h ih =>
    rw [normalize, dif_pos h, ih, Decimal.value, Decimal.value]
    have hdigits : d.digits = d.digits / 10 * 10 := by omega
    have hcast : (d.digits : ℚ) = (d.digits / 10 : Nat) * 10 := by exact_mod_cast hdigits
    rw [hcast, zpow_add_one₀ (by norm_num)]
    ring
  | case2 d h => rw [normalize, dif_neg h]

theorem value_exact (m : Nat) (e : Int) : (Binary64.exact m e).value = m * 2 ^ e := by
  unfold Binary64.exact Decimal.value
  split_ifs with he
  · rw [zpow_zero, mul_one, Nat.cast_mul, scale_eq_zpow_mul (show 0 < 2 by decide),
      scale_of_nonpos (by omega), Nat.cast_one, mul_one, Nat.cast_ofNat]
  · have hfive : (scale 5 (-e) : ℚ) * 5 ^ e = 1 := by
      rw [scale_eq_zpow_mul (show 0 < 5 by decide), neg_neg, scale_of_nonpos (by omega), Nat.cast_one, mul_one,
        Nat.cast_ofNat, ← zpow_add₀ (by norm_num), neg_add_cancel, zpow_zero]
    have hten : (10 : ℚ) ^ e = 2 ^ e * 5 ^ e := by
      rw [← mul_zpow]
      norm_num
    rw [Nat.cast_mul, hten]
    linear_combination (m * 2 ^ e : ℚ) * hfive

theorem rounds_exact {m : Nat} (hm : 0 < m) (e : Int) : Rounds m e (m * 2 ^ e) := by
  have hquarter : (m : ℚ) * 2 ^ e = (4 * m : Nat) * 2 ^ (e - 2) := by
    have : (2 : ℚ) ^ e = 2 ^ (e - 2) * 4 := by
      rw [zpow_sub₀ (by norm_num)]
      norm_num
    rw [this]
    push_cast
    ring
  have hlow : (lowEnd m e * 2 ^ (e - 2) : ℚ) < m * 2 ^ e := by
    rw [hquarter, mul_lt_mul_iff_of_pos_right (unit_pos e)]
    have := (lowEnd_bounds m e).2
    exact_mod_cast (by omega : lowEnd m e < 4 * m)
  have hhigh : (m * 2 ^ e : ℚ) < (4 * m + 2 : Nat) * 2 ^ (e - 2) := by
    rw [hquarter, mul_lt_mul_iff_of_pos_right (unit_pos e)]
    exact_mod_cast (by omega : 4 * m < 4 * m + 2)
  exact ⟨hlow.le, hhigh.le, fun _ => ⟨hlow, hhigh⟩⟩

/-- The shortest decimal rounds to the float. -/
theorem rounds_shortest {m : Nat} (hm : 0 < m) (e : Int) : Rounds m e (shortest m e).value := by
  unfold shortest
  dsimp only
  rw [value_normalize]
  cases hfound : (List.range 17).findSome? fun (i : Nat) =>
      (neighbours m e (leadingPlace m e - i)).find? (ReadsBack m e) with
  | none =>
    rw [Option.getD_none, value_exact]
    exact rounds_exact hm e
  | some d =>
    obtain ⟨i, _, hi⟩ := List.exists_of_findSome?_eq_some hfound
    exact (readsBack_iff m e d).1 (List.find?_some hi)

end Binary64

end Scriptling
