import Scriptling.Proofs.Number.Intervals

/-!
# Scriptling.Proofs.Number.Values -- the numbers that floats denote

A finite float denotes a rational number, `value?`. It is defined by what the float is in the logic, and not by the
reading of its bits that the language goes by; but the two agree (`read_eq_ofUnpacked`, `value?_eq_read`). So what is
dropped when a float is made whole is dropped from the number: `truncate?` gives the whole part of it
(`truncate?_eq`). And floats that are compared lie as the numbers do (`lt_iff`, `le_iff`).
-/

set_option autoImplicit false

namespace Scriptling

/-! ## Whole parts -/

/-- The whole part of a number. It is rounded toward zero. -/
def wholePart (q : ℚ) : Int := if 0 ≤ q then ⌊q⌋ else ⌈q⌉

theorem wholePart_of_nonneg {q : ℚ} (h : 0 ≤ q) : wholePart q = ⌊q⌋ := if_pos h

theorem wholePart_neg (q : ℚ) : wholePart (-q) = -wholePart q := by
  unfold wholePart
  rcases lt_trichotomy q 0 with h | rfl | h
  · rw [if_pos (neg_nonneg.2 h.le), if_neg h.not_ge, Int.floor_neg]
  · simp
  · rw [if_neg (neg_neg_of_pos h).not_ge, if_pos h.le, Int.ceil_neg]

theorem wholePart_intCast (z : Int) : wholePart z = z := by
  unfold wholePart
  rw [Int.floor_intCast, Int.ceil_intCast, ite_self]

theorem wholePart_lt_iff {q : ℚ} {z : Int} (hz : 0 < z) : wholePart q < z ↔ q < z := by
  unfold wholePart
  split_ifs with h
  · exact Int.floor_lt
  · have hq : q < 0 := not_le.1 h
    exact iff_of_true ((Int.ceil_le.2 (by exact_mod_cast hq.le)).trans_lt hz) (hq.trans (by exact_mod_cast hz))

theorem le_wholePart_iff {q : ℚ} {z : Int} (hz : z ≤ 0) : z ≤ wholePart q ↔ z - 1 < q := by
  unfold wholePart
  split_ifs with h
  · have hz' : (z : ℚ) ≤ 0 := by exact_mod_cast hz
    exact iff_of_true (hz.trans (Int.floor_nonneg.2 h)) (by linarith)
  · exact Int.le_ceil_iff

namespace Binary64

open Float.Model

/-! ## Values -/

/-- The number that an unpacked float of the logic denotes, if it denotes one. -/
def unpackedValue? : UnpackedFloat → Option ℚ
  | .notANumber | .infinity _ => none
  | .zero _ => some 0
  | .finite .positive m e _ => some (m * 2 ^ e)
  | .finite .negative m e _ => some (-(m * 2 ^ e))

/-- The number that a float denotes: a whole number times a power of two. -/
def value? (x : Float) : Option ℚ := unpackedValue? x.toModel.unpack

variable {x y : Float} {q r : ℚ}

/-- The finite floats are those that denote a number. -/
theorem isSome_value? (x : Float) : (value? x).isSome = x.isFinite := by
  show (unpackedValue? x.toModel.unpack).isSome = x.toModel.unpack.isFinite
  cases x.toModel.unpack with
  | finite s m e hm => cases s <;> rfl
  | _ => rfl

theorem value?_eq_none_iff : value? x = none ↔ x.isFinite = false := by
  rw [← isSome_value?, Option.isSome_eq_false_iff, Option.isNone_iff_eq_none]

/-! ## The reading of the bits -/

/-- What an unpacked float of the logic is read as. -/
def Reading.ofUnpacked : UnpackedFloat → Reading
  | .notANumber => .nan
  | .infinity s => .infinite (s == .negative)
  | .zero s => .finite (s == .negative) 0 (-1074)
  | .finite s m e _ => .finite (s == .negative) m e

theorem toNat_unpackSign (b : UInt64) :
    (@UnpackedFloat.unpackSign Format.binary64 b.toBitVec).toNat = b.toNat / signBit % 2 := by
  rw [UnpackedFloat.unpackSign, BitVec.toNat_cast, BitVec.extractLsb_toNat, Nat.shiftRight_eq_div_pow]
  rfl

theorem sign_eq_negative (b : UInt64) :
    (UnpackedFloat.Sign.ofBitVec (@UnpackedFloat.unpackSign Format.binary64 b.toBitVec) == .negative) =
      decide (b.toNat / signBit % 2 = 1) := by
  rw [← toNat_unpackSign]
  generalize @UnpackedFloat.unpackSign Format.binary64 b.toBitVec = s
  revert s
  decide

/-- The leading one, which the bits of a float leave out, is put back in front of the fraction. -/
theorem toNat_normal (m : BitVec 52) : (1#1 ++ m).toNat = fractionCount + m.toNat := by
  have hm : m.toNat < 2 ^ 52 := m.isLt
  rw [BitVec.toNat_append, Nat.shiftLeft_eq, Nat.mul_comm, ← Nat.two_pow_add_eq_or_of_lt hm]
  rfl

/-- Bits are read as the logic reads them. -/
theorem read_eq_ofUnpacked (x : Float) : read x = .ofUnpacked x.toModel.unpack := by
  show read x = .ofUnpacked (UnpackedFloat.unpack Format.binary64 x.toBits.toBitVec)
  unfold read UnpackedFloat.unpack
  dsimp only
  rw [← sign_eq_negative, ← toNat_unpackExponent, ← toNat_unpackMantissa]
  have hhighest : @UnpackedFloat.unpackExponent Format.binary64 x.toBits.toBitVec = -1#11 ↔ _ = 2047 :=
    BitVec.toNat_inj.symm
  have hlowest : @UnpackedFloat.unpackExponent Format.binary64 x.toBits.toBitVec = 0#11 ↔ _ = 0 :=
    BitVec.toNat_inj.symm
  have hzero : @UnpackedFloat.unpackMantissa Format.binary64 x.toBits.toBitVec = 0#52 ↔ _ = 0 :=
    BitVec.toNat_inj.symm
  simp only [hhighest, hlowest, hzero]
  split_ifs with hfield hfraction hfield hfraction
  · rfl
  · rfl
  · rw [hfraction]
    rfl
  · rw [hfield]
    rfl
  · rw [← toNat_normal]
    rfl

/-- The number that a reading stands for, if it stands for one. -/
def Reading.value? : Reading → Option ℚ
  | .finite negative m e => some (if negative then -(m * 2 ^ e) else m * 2 ^ e)
  | .infinite _ | .nan => none

/-- A float is read as the number that it denotes. -/
theorem value?_eq_read (x : Float) : value? x = (read x).value? := by
  rw [value?, read_eq_ofUnpacked]
  cases x.toModel.unpack with
  | notANumber => rfl
  | infinity s => rfl
  | zero s => cases s <;> simp [unpackedValue?, Reading.ofUnpacked, Reading.value?]
  | finite s m e hm => cases s <;> rfl

theorem canonical_of_read {negative : Bool} {m : Nat} {e : Int} (h : read x = .finite negative m e) :
    Canonical m e := by
  have hfraction : x.toBits.toNat % fractionCount < fractionCount := Nat.mod_lt _ (by decide)
  unfold read at h
  dsimp only at h
  split_ifs at h with hhighest hzero hlowest
  · cases h
    exact ⟨le_rfl, by omega, fun _ => rfl⟩
  · cases h
    exact ⟨by omega, by omega, by omega⟩

/-- The significand, with the sign of the float, has at most 53 bits. -/
theorem exists_significand (h : value? x = some q) : ∃ m e : Int, m.natAbs < 2 ^ 53 ∧ q = m * 2 ^ e := by
  rw [value?_eq_read] at h
  cases hread : read x with
  | finite negative m e =>
    have hm : m < 2 ^ 53 := (canonical_of_read hread).lt
    rw [hread] at h
    cases negative with
    | false =>
      cases h
      exact ⟨m, e, hm, rfl⟩
    | true =>
      cases h
      refine ⟨-m, e, (Int.natAbs_neg m).trans_lt hm, ?_⟩
      rw [if_pos rfl, Int.cast_neg, neg_mul, Int.cast_natCast]
  | infinite negative =>
    rw [hread] at h
    cases h
  | nan =>
    rw [hread] at h
    cases h

/-- A float without a fraction is all that there is from some size on. -/
theorem eq_wholePart (h : value? x = some q) (hle : 2 ^ 53 ≤ |q|) : q = wholePart q := by
  obtain ⟨m, e, hm, rfl⟩ := exists_significand h
  have hm : |(m : ℚ)| < 2 ^ 53 := by
    rw [← Int.cast_abs, Int.abs_eq_natAbs]
    exact_mod_cast hm
  rcases lt_or_ge e 0 with hneg | hnonneg
  · have hunit : (2 : ℚ) ^ e ≤ 1 := zpow_le_one_of_nonpos₀ (by norm_num) hneg.le
    rw [abs_mul, abs_of_pos (show (0 : ℚ) < 2 ^ e by positivity)] at hle
    exact absurd hle (not_le.2 ((mul_le_of_le_one_right (abs_nonneg _) hunit).trans_lt hm))
  · obtain ⟨k, rfl⟩ := Int.eq_ofNat_of_zero_le hnonneg
    have hwhole : (m * 2 ^ (k : Int) : ℚ) = (m * 2 ^ k : Int) := by
      push_cast
      rfl
    rw [hwhole, wholePart_intCast]

theorem wholePart_magnitude (m : Nat) (e : Int) :
    wholePart (m * 2 ^ e) = (m * scale 2 e / scale 2 (-e) : Nat) := by
  have hpos : (0 : ℚ) < scale 2 (-e) := Nat.cast_pos.2 (scale_pos (by decide) _)
  have hratio : (m * 2 ^ e : ℚ) = (m * scale 2 e : Nat) / (scale 2 (-e) : Nat) := by
    rw [eq_div_iff hpos.ne', Nat.cast_mul, scale_eq_zpow_mul (show 0 < 2 by decide) e, Nat.cast_ofNat]
    ring
  rw [wholePart_of_nonneg (by positivity), hratio, Rat.floor_natCast_div_natCast]
  rfl

/-- A float is made whole as the number is that it denotes. -/
theorem truncate?_eq (x : Float) : truncate? x = (value? x).map wholePart := by
  rw [value?_eq_read, truncate?]
  cases read x with
  | nan => rfl
  | infinite negative => rfl
  | finite negative m e =>
    refine congrArg some ?_
    cases negative with
    | false => exact (wholePart_magnitude m e).symm
    | true => exact ((wholePart_neg _).trans (congrArg _ (wholePart_magnitude m e))).symm

/-! ## The order of floats -/

section Order

variable {m m' : Nat} {e e' : Int}

/-- Whatever their significands are, a float of a higher exponent is larger: it has a leading one. -/
theorem Canonical.lt_of_exponent_lt (h : Canonical m e) (h' : Canonical m' e') (hlt : e < e') :
    (m * 2 ^ e : ℚ) < m' * 2 ^ e' := by
  have hlowest := h.lowest
  have hnormal : fractionCount ≤ m' := by
    by_contra hsub
    have := h'.subnormal (not_le.1 hsub)
    omega
  have hm : (m : ℚ) < 2 * fractionCount := by exact_mod_cast h.lt
  have hm' : (fractionCount : ℚ) ≤ m' := by exact_mod_cast hnormal
  calc (m * 2 ^ e : ℚ) < 2 * fractionCount * 2 ^ e := by gcongr
    _ = fractionCount * 2 ^ (e + 1) := by
      rw [zpow_add_one₀ (by norm_num)]
      ring
    _ ≤ m' * 2 ^ e' := by
      gcongr
      · norm_num
      · omega

/-- The magnitudes of floats lie as their exponents do, and if these are the same, as their significands. -/
theorem Canonical.compare_eq (h : Canonical m e) (h' : Canonical m' e') :
    (compare e e').then (compare m m') = compare (m * 2 ^ e : ℚ) (m' * 2 ^ e') := by
  rcases lt_trichotomy e e' with hlt | rfl | hgt
  · rw [compare_lt_iff_lt.2 hlt, compare_lt_iff_lt.2 (h.lt_of_exponent_lt h' hlt)]
    rfl
  · have hunit : (0 : ℚ) < 2 ^ e := zpow_pos (by norm_num) _
    rw [compare_eq_iff_eq.2 rfl]
    show compare m m' = _
    rcases lt_trichotomy m m' with hlt | rfl | hgt
    · rw [compare_lt_iff_lt.2 hlt, compare_lt_iff_lt.2 (by gcongr)]
    · rw [compare_eq_iff_eq.2 rfl, compare_eq_iff_eq.2 rfl]
    · rw [compare_gt_iff_gt.2 hgt, compare_gt_iff_gt.2 (by gcongr)]
  · rw [compare_gt_iff_gt.2 hgt, compare_gt_iff_gt.2 (h'.lt_of_exponent_lt h hgt)]
    rfl

theorem compare_neg (q r : ℚ) : compare (-q) (-r) = (compare q r).swap := by
  rcases lt_trichotomy q r with hlt | rfl | hgt
  · rw [compare_lt_iff_lt.2 hlt, compare_gt_iff_gt.2 (neg_lt_neg hlt)]
    rfl
  · rw [compare_eq_iff_eq.2 rfl, compare_eq_iff_eq.2 rfl]
    rfl
  · rw [compare_gt_iff_gt.2 hgt, compare_lt_iff_lt.2 (neg_lt_neg hgt)]
    rfl

/-- The significand and the exponent of an unpacked float are canonical, if it has any. -/
def IsCanonical (a : UnpackedFloat) : Prop :=
  ∀ negative m e, Reading.ofUnpacked a = .finite negative m e → Canonical m e

section

variable {a b : UnpackedFloat} (s s' : UnpackedFloat.Sign)

theorem magnitude_pos (hm : 0 < m) (e : Int) : (0 : ℚ) < m * 2 ^ e := by positivity

theorem compare_zero_left (hr : unpackedValue? b = some r) :
    (UnpackedFloat.zero s).compare b = some (compare 0 r) := by
  cases b with
  | notANumber => cases hr
  | infinity s' => cases hr
  | zero s' =>
    cases hr
    exact (congrArg some (compare_eq_iff_eq.2 rfl)).symm
  | finite s' m e hm =>
    have hpos := magnitude_pos hm e
    cases s' with
    | negative =>
      cases hr
      exact (congrArg some (compare_gt_iff_gt.2 (neg_neg_of_pos hpos))).symm
    | positive =>
      cases hr
      exact (congrArg some (compare_lt_iff_lt.2 hpos)).symm

theorem compare_zero_right (hm : 0 < m) (hq : unpackedValue? (.finite s m e hm) = some q) :
    (UnpackedFloat.finite s m e hm).compare (.zero s') = some (compare q 0) := by
  have hpos := magnitude_pos hm e
  cases s with
  | negative =>
    cases hq
    exact (congrArg some (compare_lt_iff_lt.2 (neg_neg_of_pos hpos))).symm
  | positive =>
    cases hq
    exact (congrArg some (compare_gt_iff_gt.2 hpos)).symm

/-- Of two floats of one sign the magnitudes are compared, and of two signs only these. -/
theorem compare_finite (h : Canonical m e) (h' : Canonical m' e') (hm : 0 < m) (hm' : 0 < m')
    (hq : unpackedValue? (.finite s m e hm) = some q) (hr : unpackedValue? (.finite s' m' e' hm') = some r) :
    (UnpackedFloat.finite s m e hm).compare (.finite s' m' e' hm') = some (compare q r) := by
  have hpos := magnitude_pos hm e
  have hpos' := magnitude_pos hm' e'
  have horder := h.compare_eq h'
  cases s with
  | negative =>
    cases hq
    cases s' with
    | negative =>
      cases hr
      exact congrArg some ((congrArg Ordering.swap horder).trans (compare_neg _ _).symm)
    | positive =>
      cases hr
      exact (congrArg some (compare_lt_iff_lt.2 ((neg_neg_of_pos hpos).trans hpos'))).symm
  | positive =>
    cases hq
    cases s' with
    | negative =>
      cases hr
      exact (congrArg some (compare_gt_iff_gt.2 ((neg_neg_of_pos hpos').trans hpos))).symm
    | positive =>
      cases hr
      exact congrArg some horder

theorem compare_eq_of_values (ha : IsCanonical a) (hb : IsCanonical b) (hq : unpackedValue? a = some q)
    (hr : unpackedValue? b = some r) : a.compare b = some (compare q r) := by
  cases a with
  | notANumber => cases hq
  | infinity s => cases hq
  | zero s =>
    cases hq
    exact compare_zero_left s hr
  | finite s m e hm =>
    cases b with
    | notANumber => cases hr
    | infinity s' => cases hr
    | zero s' =>
      cases hr
      exact compare_zero_right s s' hm hq
    | finite s' m' e' hm' => exact compare_finite s s' (ha _ m e rfl) (hb _ m' e' rfl) hm hm' hq hr

end

theorem isCanonical_unpack (x : Float) : IsCanonical x.toModel.unpack := fun _ _ _ h =>
  canonical_of_read ((read_eq_ofUnpacked x).trans h)

theorem compare_unpack (hx : value? x = some q) (hy : value? y = some r) :
    x.toModel.unpack.compare y.toModel.unpack = some (compare q r) :=
  compare_eq_of_values (isCanonical_unpack x) (isCanonical_unpack y) hx hy

/-- Finite floats lie as the numbers do that they denote. -/
theorem lt_iff (hx : value? x = some q) (hy : value? y = some r) : x < y ↔ q < r := by
  have hlt : x < y ↔ (x.toModel.unpack.compare y.toModel.unpack == some .lt) = true := decide_eq_true_iff
  rw [hlt, compare_unpack hx hy, beq_iff_eq, Option.some.injEq, compare_lt_iff_lt]

theorem le_iff (hx : value? x = some q) (hy : value? y = some r) : x ≤ y ↔ q ≤ r := by
  have hle : x ≤ y ↔ (x.toModel.unpack.compare y.toModel.unpack).any (·.isLE) = true := decide_eq_true_iff
  rw [hle, compare_unpack hx hy]
  exact Ordering.isLE_iff_ne_gt.trans compare_le_iff_le

end Order

end Binary64

end Scriptling
