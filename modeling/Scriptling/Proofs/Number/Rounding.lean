import Scriptling.Proofs.Number.Values

/-!
# Scriptling.Proofs.Number.Rounding -- numbers that are not rounded

A ratio that is a float already is rounded to itself (`read_ofRatio`). The exponent of the float nearest to a ratio
is found from the logarithm of the ratio, and where the ratio is a float this is the exponent of the float
(`log_canonical`); so the significand is found without a remainder. It follows which whole numbers are kept: those of
at most 53 bits, with any zeros behind them (`value?_ofInt`).
-/

set_option autoImplicit false

namespace Scriptling.Binary64

variable {num den m : Nat} {e : Int}

/-! ## Logarithms -/

/-- A number between two powers in a row has the logarithm of the lower one. -/
theorem eq_log {q : ℚ} {k : Int} (hle : 2 ^ k ≤ q) (hlt : q < 2 ^ (k + 1)) : k = Int.log 2 q := by
  have hq : 0 < q := lt_of_lt_of_le (zpow_pos (by norm_num) _) hle
  have hle' := (Int.zpow_le_iff_le_log (b := 2) (by decide) hq).1 (by exact_mod_cast hle)
  have hlt' := (Int.lt_zpow_iff_log_lt (b := 2) (by decide) hq).1 (by exact_mod_cast hlt)
  omega

theorem log2_bounds {n : Nat} (hn : 0 < n) :
    (2 : ℚ) ^ (Nat.log2 n : Int) ≤ n ∧ (n : ℚ) < 2 ^ (Nat.log2 n + 1 : Int) := by
  exact_mod_cast And.intro (Nat.log2_self_le hn.ne') Nat.lt_log2_self

section

variable (hnum : 0 < num) (hden : 0 < den)

include hden

/-- A ratio is compared with a power in whole numbers. -/
theorem mul_scale_lt_iff (k : Int) : num * scale 2 (-k) < den * scale 2 k ↔ (num / den : ℚ) < 2 ^ k := by
  have hden : (0 : ℚ) < den := Nat.cast_pos.2 hden
  have hscale : (0 : ℚ) < scale 2 (-k) := Nat.cast_pos.2 (scale_pos (by decide) _)
  rw [div_lt_iff₀ hden, ← Nat.cast_lt (α := ℚ), Nat.cast_mul, Nat.cast_mul,
    scale_eq_zpow_mul (show 0 < 2 by decide) k, ← mul_assoc, mul_lt_mul_iff_of_pos_right hscale, mul_comm,
    Nat.cast_ofNat, mul_comm]

include hnum

/-- The logarithms of numerator and denominator tell the ratio up to a factor of two on either side. -/
theorem ratio_bounds {k : Int} (hk : (Nat.log2 num : Int) - Nat.log2 den = k) :
    (2 : ℚ) ^ (k - 1) ≤ num / den ∧ (num / den : ℚ) < 2 ^ (k + 1) := by
  obtain ⟨hnumLe, hnumLt⟩ := log2_bounds hnum
  obtain ⟨hdenLe, hdenLt⟩ := log2_bounds hden
  have hden : (0 : ℚ) < den := Nat.cast_pos.2 hden
  rw [le_div_iff₀ hden, div_lt_iff₀ hden]
  constructor
  · calc (2 : ℚ) ^ (k - 1) * den ≤ 2 ^ (k - 1) * 2 ^ (Nat.log2 den + 1 : Int) := by gcongr
      _ = 2 ^ (Nat.log2 num : Int) := by
        rw [← zpow_add₀ (by norm_num)]
        congr 1
        omega
      _ ≤ num := hnumLe
  · calc (num : ℚ) < 2 ^ (Nat.log2 num + 1 : Int) := hnumLt
      _ = 2 ^ (k + 1) * 2 ^ (Nat.log2 den : Int) := by
        rw [← zpow_add₀ (by norm_num)]
        congr 1
        omega
      _ ≤ 2 ^ (k + 1) * den := by gcongr

theorem floorLog2_eq_log : floorLog2 num den = Int.log 2 (num / den : ℚ) := by
  unfold floorLog2
  dsimp only
  generalize hk : (Nat.log2 num : Int) - Nat.log2 den = k
  obtain ⟨hle, hlt⟩ := ratio_bounds hnum hden hk
  split_ifs with hbelow
  · refine eq_log hle ?_
    rw [sub_add_cancel]
    exact (mul_scale_lt_iff hden k).1 hbelow
  · exact eq_log (not_lt.1 (mt (mul_scale_lt_iff hden k).2 hbelow)) hlt

end

/-- The exponent of a float is told by the size of the number that it denotes. -/
theorem log_canonical (h : Canonical m e) (hm : 0 < m) : max (Int.log 2 (m * 2 ^ e : ℚ) - 52) (-1074) = e := by
  have hlowest := h.lowest
  have hpos : (0 : ℚ) < m * 2 ^ e := by positivity
  have hbelow {k : Nat} (hlt : m < 2 ^ k) : Int.log 2 (m * 2 ^ e : ℚ) < e + k := by
    have hm : (m : ℚ) < 2 ^ (k : Int) := by exact_mod_cast hlt
    rw [← Int.lt_zpow_iff_log_lt (by decide) hpos, Nat.cast_ofNat]
    calc (m * 2 ^ e : ℚ) < 2 ^ (k : Int) * 2 ^ e := by gcongr
      _ = 2 ^ (e + k) := by rw [← zpow_add₀ (by norm_num), add_comm]
  by_cases hsub : m < fractionCount
  · have hlog := hbelow (k := 52) hsub
    have hexponent := h.subnormal hsub
    omega
  · have hlog := hbelow (k := 53) h.lt
    have hle : e + 52 ≤ Int.log 2 (m * 2 ^ e : ℚ) := by
      have hm : (2 : ℚ) ^ (52 : Int) ≤ m := by exact_mod_cast not_lt.1 hsub
      rw [← Int.zpow_le_iff_le_log (by decide) hpos, Nat.cast_ofNat]
      calc (2 : ℚ) ^ (e + 52) = 2 ^ (52 : Int) * 2 ^ e := by rw [← zpow_add₀ (by norm_num), add_comm]
        _ ≤ m * 2 ^ e := by gcongr
    omega

/-! ## Floats are kept -/

theorem halfEven_mul (hden : 0 < den) (n : Nat) : halfEven (n * den) den = n := by
  unfold halfEven
  rw [Nat.mul_mod_left, Nat.mul_div_cancel _ hden]
  exact if_pos (by omega)

theorem read_ofMagnitude_canonical (negative : Bool) (h : Canonical m e) (he : e ≤ 971) :
    read (ofMagnitude negative ((e + 1074).toNat * fractionCount + m)) = .finite negative m e := by
  have hlowest := h.lowest
  have hlt := h.lt
  have hsubnormal := h.subnormal
  unfold fractionCount at *
  have hk : (e + 1074).toNat * 4503599627370496 + m < infiniteMagnitude := by
    unfold infiniteMagnitude fractionCount
    omega
  obtain ⟨hmagnitude, hread | ⟨m', e', h', hread⟩⟩ := read_ofMagnitude negative hk.le
  · rw [hread] at hmagnitude
    exact absurd hmagnitude hk.ne'
  · rw [hread] at hmagnitude ⊢
    have hmagnitude : (e' + 1074).toNat * 4503599627370496 + m' = (e + 1074).toNat * 4503599627370496 + m :=
      hmagnitude
    have hlowest' := h'.lowest
    have hlt' := h'.lt
    have hsubnormal' := h'.subnormal
    unfold fractionCount at *
    have hexponent : e' = e := by omega
    have hsignificand : m' = m := by omega
    rw [hexponent, hsignificand]

/-- A ratio that is a float is rounded to it. -/
theorem read_ofRatio (negative : Bool) (h : Canonical m e) (he : e ≤ 971) (hden : 0 < den)
    (hratio : (num / den : ℚ) = m * 2 ^ e) : read (ofRatio negative num den) = .finite negative m e := by
  have hden' : (den : ℚ) ≠ 0 := Nat.cast_ne_zero.2 hden.ne'
  rw [← read_ofMagnitude_canonical negative h he]
  rcases Nat.eq_zero_or_pos m with rfl | hm
  · have hnum : num = 0 := by simpa [hden'] using hratio
    have hlowest : e = -1074 := h.subnormal (by decide)
    rw [ofRatio, if_pos hnum, hlowest]
    rfl
  · have hnum : num ≠ 0 := by
      rintro rfl
      have hpos : (0 : ℚ) < m * 2 ^ e := by positivity
      rw [Nat.cast_zero, zero_div] at hratio
      exact hpos.ne hratio
    have hsignificand : num * scale 2 (-e) = m * (den * scale 2 e) := by
      rw [div_eq_iff hden'] at hratio
      rw [← Nat.cast_inj (R := ℚ), Nat.cast_mul, hratio, Nat.cast_mul, Nat.cast_mul,
        scale_eq_zpow_mul (show 0 < 2 by decide) e, Nat.cast_ofNat]
      ring
    have hunit : 0 < den * scale 2 e := Nat.mul_pos hden (scale_pos (by decide) _)
    rw [ofRatio, if_neg hnum]
    dsimp only
    rw [floorLog2_eq_log (Nat.pos_of_ne_zero hnum) hden, hratio, log_canonical h hm, hsignificand,
      halfEven_mul hunit]

/-- A significand of fewer bits is filled up with zeros until it has 53, or the exponent is the lowest one. -/
theorem exists_canonical (hm : m < 2 * fractionCount) (he : -1074 ≤ e) :
    ∃ m' e', Canonical m' e' ∧ e' ≤ e ∧ (m' * 2 ^ e' : ℚ) = m * 2 ^ e := by
  obtain ⟨n, hn⟩ := Int.eq_ofNat_of_zero_le (show 0 ≤ e + 1074 by omega)
  induction n generalizing m e with
  | zero => exact ⟨m, e, ⟨he, hm, fun _ => by omega⟩, le_rfl, rfl⟩
  | succ n ih =>
    by_cases hsub : m < fractionCount
    · obtain ⟨m', e', h, hle, hvalue⟩ := ih (m := 2 * m) (e := e - 1) (by omega) (by omega) (by omega)
      refine ⟨m', e', h, by omega, hvalue.trans ?_⟩
      rw [zpow_sub_one₀ (by norm_num)]
      push_cast
      ring
    · exact ⟨m, e, ⟨he, hm, fun hlt => absurd hlt hsub⟩, le_rfl, rfl⟩

theorem value?_ofRatio (negative : Bool) (hm : m < 2 * fractionCount) (he : -1074 ≤ e) (he' : e ≤ 971)
    (hden : 0 < den) (hratio : (num / den : ℚ) = m * 2 ^ e) :
    value? (ofRatio negative num den) = some (if negative then -(num / den : ℚ) else num / den) := by
  obtain ⟨m', e', h, hle, hvalue⟩ := exists_canonical hm he
  rw [value?_eq_read, read_ofRatio negative h (hle.trans he') hden (hratio.trans hvalue.symm), Reading.value?, hvalue,
    hratio]

/-- A whole number of at most 53 bits and some zeros behind them is kept. -/
theorem value?_ofInt {z : Int} {k : Nat} (hz : z.natAbs = m * 2 ^ k) (hm : m < 2 * fractionCount) (hk : k ≤ 971) :
    value? (ofInt z) = some (z : ℚ) := by
  have hratio : (z.natAbs / (1 : Nat) : ℚ) = m * 2 ^ (k : Int) := by
    rw [hz, Nat.cast_one, div_one]
    push_cast
    rfl
  rw [ofInt, value?_ofRatio _ hm (by omega) (by omega) Nat.one_pos hratio, Nat.cast_one, div_one, ← Int.cast_natCast]
  refine congrArg some ?_
  split_ifs with hneg
  · have hneg := of_decide_eq_true hneg
    rw [← Int.cast_neg, Int.cast_inj]
    omega
  · have hnonneg : ¬ z < 0 := fun h => hneg (decide_eq_true h)
    rw [Int.cast_inj]
    omega

end Scriptling.Binary64
