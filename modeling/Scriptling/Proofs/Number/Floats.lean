import Scriptling.Number.Decimal
import Mathlib

/-!
# Scriptling.Proofs.Number.Floats -- floats numbered by magnitude

The floats of one sign are numbered by magnitude, and they keep their number (`read_ofMagnitude`): not one of them is
the float that is not a number, whose bits alone are not kept. A float that is finite has a significand of 53 bits,
unless the exponent is the lowest one (`Canonical`).

A numeral of a program has no sign, so the floats that are read are zero, positive or infinite (`unsigned_toFloat`).
What such a float stands for determines it (`Unsigned.eq_of_read`).
-/

set_option autoImplicit false

namespace Scriptling.Binary64

open Float.Model

/-! ## Bits -/

/-- The bits of a float are those that it was made of, unless they are those of no number. -/
theorem toBits_ofBits {b : UInt64}
    (h : @UnpackedFloat.isNaNBits Format.binary64 b.toBitVec = false) :
    (Float.ofBits b).toBits = b := by
  show (⟨UnpackedFloat.pack Format.binary64 (UnpackedFloat.unpack Format.binary64 b.toBitVec)⟩ : UInt64) = b
  rw [UnpackedFloat.pack_unpack, if_neg (by simp [h])]

theorem toNat_unpackExponent (b : UInt64) :
    (@UnpackedFloat.unpackExponent Format.binary64 b.toBitVec).toNat =
      b.toNat / fractionCount % 2048 := by
  rw [UnpackedFloat.unpackExponent, BitVec.toNat_cast, BitVec.extractLsb_toNat, Nat.shiftRight_eq_div_pow]
  rfl

theorem toNat_unpackMantissa (b : UInt64) :
    (@UnpackedFloat.unpackMantissa Format.binary64 b.toBitVec).toNat =
      b.toNat % fractionCount := by
  rw [UnpackedFloat.unpackMantissa, BitVec.toNat_cast, BitVec.extractLsb_toNat, Nat.shiftRight_zero]
  rfl

/-- The bits of the float with the given sign and magnitude, as one number. -/
def signed (negative : Bool) (k : Nat) : Nat := if negative then signBit + k else k

section

variable (negative : Bool) {k : Nat} (hk : k ≤ infiniteMagnitude)

include hk

/-- The sign, the exponent field and the fraction are apart. -/
theorem signed_fields : decide (signed negative k / signBit % 2 = 1) = negative ∧
    signed negative k / fractionCount % 2048 = k / fractionCount ∧
    signed negative k % fractionCount = k % fractionCount := by
  unfold infiniteMagnitude fractionCount at hk
  unfold signed signBit fractionCount
  cases negative with
  | false =>
    rw [if_neg Bool.false_ne_true, decide_eq_false_iff_not]
    omega
  | true =>
    rw [if_pos rfl, decide_eq_true_iff]
    omega

theorem toNat_ofNat_signed : (UInt64.ofNat (signed negative k)).toNat = signed negative k := by
  refine UInt64.toNat_ofNat_of_lt ?_
  show signed negative k < 18446744073709551616
  unfold infiniteMagnitude fractionCount at hk
  unfold signed signBit
  split <;> omega

/-- Only the first of the magnitudes with the highest exponent is at most that of infinity. -/
theorem isNaNBits_signed :
    @UnpackedFloat.isNaNBits Format.binary64 (UInt64.ofNat (signed negative k)).toBitVec = false := by
  obtain ⟨-, hfield, hfraction⟩ := signed_fields negative hk
  refine decide_eq_false fun ⟨hexponent, hmantissa⟩ => hmantissa (BitVec.eq_of_toNat_eq ?_)
  have hhighest := congrArg BitVec.toNat hexponent
  rw [toNat_unpackExponent, toNat_ofNat_signed negative hk, hfield] at hhighest
  have hhighest : k / fractionCount = 2047 := hhighest
  rw [toNat_unpackMantissa, toNat_ofNat_signed negative hk, hfraction]
  show k % fractionCount = 0
  unfold infiniteMagnitude at hk
  unfold fractionCount at *
  omega

theorem toBits_ofMagnitude : (ofMagnitude negative k).toBits.toNat = signed negative k := by
  have hmagnitude : ofMagnitude negative k = Float.ofBits (UInt64.ofNat (signed negative k)) := by
    unfold ofMagnitude signed
    rw [Nat.min_eq_left hk]
  rw [hmagnitude, toBits_ofBits (isNaNBits_signed negative hk), toNat_ofNat_signed negative hk]

end

/-! ## What they stand for -/

/-- A float that is zero, positive or infinite. -/
def Unsigned (x : Float) : Prop := ∃ k ≤ infiniteMagnitude, x = ofMagnitude false k

/-- The significand and the exponent of a float: there are 53 bits, unless the exponent is the lowest. -/
structure Canonical (m : Nat) (e : Int) : Prop where
  lowest : -1074 ≤ e
  lt : m < 2 * fractionCount
  subnormal : m < fractionCount → e = -1074

theorem unsigned_ofMagnitude (k : Nat) : Unsigned (ofMagnitude false k) := by
  refine ⟨min k infiniteMagnitude, Nat.min_le_right _ _, ?_⟩
  unfold ofMagnitude
  rw [Nat.min_eq_left (Nat.min_le_right _ _)]

/-- A numeral without a sign is read as such a float. -/
theorem unsigned_toFloat (d : Decimal) : Unsigned (Decimal.toFloat false d) := by
  unfold Decimal.toFloat ofRatio
  dsimp only
  split_ifs
  · exact unsigned_ofMagnitude _
  · exact unsigned_ofMagnitude _
  · exact unsigned_ofMagnitude _
  · exact unsigned_ofMagnitude _

/-- The number of a float among those of its sign. -/
def Reading.magnitude : Reading → Nat
  | .nan => 0
  | .infinite _ => infiniteMagnitude
  | .finite _ m e => (e + 1074).toNat * fractionCount + m

theorem read_ofMagnitude (negative : Bool) {k : Nat} (hk : k ≤ infiniteMagnitude) :
    (read (ofMagnitude negative k)).magnitude = k ∧
      (read (ofMagnitude negative k) = .infinite negative ∨
        ∃ m e, Canonical m e ∧ read (ofMagnitude negative k) = .finite negative m e) := by
  obtain ⟨hsign, hfield, hfraction⟩ := signed_fields negative hk
  simp only [read, toBits_ofMagnitude negative hk, hsign, hfield, hfraction]
  unfold infiniteMagnitude at hk
  unfold fractionCount at *
  split_ifs with hhighest hzero hlowest
  · refine ⟨?_, .inl rfl⟩
    show 2047 * 4503599627370496 = k
    omega
  · omega
  · refine ⟨?_, .inr ⟨_, _, ⟨le_rfl, ?_, fun _ => rfl⟩, rfl⟩⟩
    · show (-1074 + 1074 : Int).toNat * 4503599627370496 + k % 4503599627370496 = k
      omega
    · unfold fractionCount
      omega
  · refine ⟨?_, .inr ⟨_, _, ⟨?_, ?_, ?_⟩, rfl⟩⟩
    · show (((k / 4503599627370496 : Nat) : Int) - 1075 + 1074).toNat * 4503599627370496 +
        (4503599627370496 + k % 4503599627370496) = k
      omega
    · omega
    · unfold fractionCount
      omega
    · unfold fractionCount
      omega

section

variable {x y : Float}

theorem Unsigned.read_cases (hx : Unsigned x) :
    read x = .infinite false ∨ ∃ m e, Canonical m e ∧ read x = .finite false m e := by
  obtain ⟨k, hk, rfl⟩ := hx
  exact (read_ofMagnitude false hk).2

/-- What the float stands for determines it. -/
theorem Unsigned.eq_of_read (hx : Unsigned x) (hy : Unsigned y) (h : read x = read y) : x = y := by
  obtain ⟨k, hk, rfl⟩ := hx
  obtain ⟨l, hl, rfl⟩ := hy
  rw [← (read_ofMagnitude false hk).1, h, (read_ofMagnitude false hl).1]

end

end Scriptling.Binary64
