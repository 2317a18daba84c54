import Scriptling.Number.Convert
import Scriptling.Proofs.Number.Rounding
import Scriptling.Proofs.Number.Words

/-!
# Scriptling.Proofs.Number.Conversions -- words and floats as the same numbers

A float becomes the word that is its whole part (`ofFloat?_eq_some_iff`), and a word becomes the float that denotes it
(`value?_of_toFloat?`), unless it is too large. That is not the same as being no float: a word is denoted by a float if
it has at most 53 bits and any zeros behind them (`representable_iff`), however large it is.

Whether a float becomes a word can be told without whole numbers: it is enough to compare it with the floats nearest
to the ends of the range (`isSome_ofFloat?_iff`). The float at the upper end is one more than the greatest word, which
is no float, so that end is left out; the least word is a float, and none lies between it and the whole number before.
-/

set_option autoImplicit false

namespace Scriptling.Word

open Binary64 (value?)

variable {x : Float} {w : Word} {q : ℚ} {z : Int}

/-! ## From floats to words -/

/-- Only the fraction of a float is dropped. -/
theorem ofFloat?_eq_some_iff : ofFloat? x = some w ↔ ∃ q, value? x = some q ∧ w.toInt = wholePart q := by
  rw [ofFloat?, Binary64.truncate?_eq, Option.bind_map, Option.bind_eq_some_iff]
  exact exists_congr fun q => and_congr_right fun _ => ofInt?_eq_some_iff

theorem ofFloat?_eq_none_iff : ofFloat? x = none ↔ ∀ q, value? x = some q → ¬ InRange (wholePart q) := by
  rw [ofFloat?, Binary64.truncate?_eq, Option.bind_map, Option.bind_eq_none_iff]
  exact forall_congr' fun q => imp_congr_right fun _ => ofInt?_eq_none_iff

/-! ## From words to floats -/

/-- Words are refused from some size on. -/
theorem toFloat?_eq_none_iff : toFloat? w = none ↔ 2 ^ 53 ≤ w.toInt.natAbs := by
  unfold toFloat? exactLimit
  rw [ite_eq_right_iff]
  constructor
  · intro h
    by_contra hlt
    cases h (by omega)
  · intro h hle
    omega

/-- A word that is not refused is not rounded. -/
theorem value?_of_toFloat? (h : toFloat? w = some x) : value? x = some (w.toInt : ℚ) := by
  unfold toFloat? exactLimit at h
  split_ifs at h with hle
  cases h
  exact Binary64.value?_ofInt (k := 0) (by omega) (Nat.lt_succ_of_le hle) (by decide)

/-! ## Words that are floats -/

/-- The whole number has at most 53 bits and some zeros behind them. -/
def Representable (z : Int) : Prop := ∃ (m : Int) (k : Nat), m.natAbs < 2 ^ 53 ∧ z = m * 2 ^ k

theorem representable_of_lt (h : z.natAbs < 2 ^ 53) : Representable z := ⟨z, 0, h, by omega⟩

theorem representable_of_value? (h : value? x = some (z : ℚ)) : Representable z := by
  obtain ⟨m, e, hm, hvalue⟩ := Binary64.exists_significand h
  rcases le_total 0 e with he | he
  · obtain ⟨k, rfl⟩ := Int.eq_ofNat_of_zero_le he
    exact ⟨m, k, hm, by exact_mod_cast hvalue⟩
  · -- The number is no larger than its significand.
    obtain ⟨k, hk⟩ := Int.eq_ofNat_of_zero_le (Int.neg_nonneg_of_nonpos he)
    have hsignificand : z * 2 ^ k = m := by
      rw [← Int.cast_inj (α := ℚ)]
      push_cast
      rw [hvalue, ← zpow_natCast, ← hk, mul_assoc, ← zpow_add₀ (by norm_num), add_neg_cancel,
        zpow_zero, mul_one]
    have hle : z.natAbs ≤ m.natAbs := by
      rw [← hsignificand, Int.natAbs_mul]
      exact Nat.le_mul_of_pos_right _ (by positivity)
    exact representable_of_lt (hle.trans_lt hm)

/-- The words of that kind are those that a float denotes. -/
theorem representable_iff (w : Word) : Representable w.toInt ↔ ∃ x, value? x = some (w.toInt : ℚ) := by
  constructor
  · rintro ⟨m, k, hm, hw⟩
    by_cases hzero : m = 0
    · have hw : w.toInt.natAbs = 0 * 2 ^ 0 := by simp [hw, hzero]
      exact ⟨_, Binary64.value?_ofInt hw (by decide) (by decide)⟩
    · have hw : w.toInt.natAbs = m.natAbs * 2 ^ k := by rw [hw, Int.natAbs_mul, Int.natAbs_pow]; rfl
      have hk : 2 ^ k < 2 ^ 64 := by
        have hrange := inRange_toInt w
        unfold InRange at hrange
        calc 2 ^ k ≤ m.natAbs * 2 ^ k := Nat.le_mul_of_pos_left _ (by omega)
          _ = w.toInt.natAbs := hw.symm
          _ < 2 ^ 64 := by omega
      have hk := (Nat.pow_lt_pow_iff_right (by decide)).1 hk
      exact ⟨_, Binary64.value?_ofInt hw hm (by omega)⟩
  · rintro ⟨x, hx⟩
    exact representable_of_value? hx

/-! ## The range in floats -/

/-- The least word is a float. -/
theorem value?_least : value? (Binary64.ofInt Int64.minValue.toInt) = some (-2 ^ 63) := by
  have hread : Binary64.read (Binary64.ofInt Int64.minValue.toInt) = .finite true 4503599627370496 11 := by decide
  rw [Binary64.value?_eq_read, hread, Binary64.Reading.value?]
  norm_num

/-- The greatest word is no float. The float nearest to it is one more. -/
theorem value?_greatest : value? (Binary64.ofInt Int64.maxValue.toInt) = some (2 ^ 63) := by
  have hread : Binary64.read (Binary64.ofInt Int64.maxValue.toInt) = .finite false 4503599627370496 11 := by decide
  rw [Binary64.value?_eq_read, hread, Binary64.Reading.value?]
  norm_num

/-- No float lies between the least word and the whole number before it, for floats of that size are whole. -/
theorem inRange_wholePart_iff (h : value? x = some q) : InRange (wholePart q) ↔ -2 ^ 63 ≤ q ∧ q < 2 ^ 63 := by
  have hlow : -9223372036854775808 ≤ wholePart q ↔ -2 ^ 63 ≤ q := by
    rw [le_wholePart_iff (by decide)]
    push_cast
    refine ⟨fun hlt => ?_, fun hle => by linarith⟩
    by_contra hbelow
    have hbelow := not_le.1 hbelow
    have hwhole := Binary64.eq_wholePart h (le_abs.2 (.inr (by linarith)))
    rw [hwhole] at hlt hbelow
    have hlt : -9223372036854775808 - 1 < wholePart q := by exact_mod_cast hlt
    have hbelow : wholePart q < -9223372036854775808 := by exact_mod_cast hbelow
    omega
  have hhigh : wholePart q ≤ 9223372036854775807 ↔ q < 2 ^ 63 := by
    rw [← Int.lt_add_one_iff, wholePart_lt_iff (by decide)]
    norm_num
  exact and_congr hlow hhigh

/-- **The range is told by two floats.** A float becomes a word if and only if it is finite, not below the float
nearest to the least word, and below the float nearest to the greatest word. -/
theorem isSome_ofFloat?_iff (x : Float) : (ofFloat? x).isSome = true ↔
    x.isFinite = true ∧ Binary64.ofInt Int64.minValue.toInt ≤ x ∧ x < Binary64.ofInt Int64.maxValue.toInt := by
  cases hx : value? x with
  | none =>
    have hnone : ofFloat? x = none := ofFloat?_eq_none_iff.2 fun q hq => by
      rw [hx] at hq
      cases hq
    rw [hnone, Binary64.value?_eq_none_iff.1 hx]
    simp
  | some q =>
    have hfinite : x.isFinite = true := by rw [← Binary64.isSome_value?, hx, Option.isSome_some]
    rw [hfinite, Binary64.le_iff value?_least hx, Binary64.lt_iff hx value?_greatest, ← inRange_wholePart_iff hx,
      Option.isSome_iff_ne_none, Ne, ofFloat?_eq_none_iff, hx]
    simp

/-- The float at the upper end of the range is out of it. -/
example : ofFloat? (Binary64.ofInt Int64.maxValue.toInt) = none := by decide

end Scriptling.Word
