import Mathlib
import Scriptling.Number.Word

/-!
# Scriptling.Proofs.Number.Words -- words as whole numbers

What the operations on words do to the whole numbers that the words stand for: which numbers are words, which words
are code points, where a quotient fits, which bits a word has and what shifting does to it. Everything is said of
`toInt`, with exact arithmetic on whole numbers.
-/

set_option autoImplicit false

namespace Scriptling.Word

/-! ## Ranges -/

/-- The whole number is in the signed 64-bit range. -/
def InRange (z : Int) : Prop := -9223372036854775808 ≤ z ∧ z ≤ 9223372036854775807

/-- The whole number is a code point that is a character: it is not a surrogate. -/
def IsScalar (z : Int) : Prop := 0 ≤ z ∧ z < 0xD800 ∨ 0xDFFF < z ∧ z ≤ 0x10FFFF

variable {z : Int} {w a b : Word} {c : Char}

theorem inRange_toInt (w : Word) : InRange w.toInt := by
  have hmin := w.le_toInt
  have hmax := w.toInt_lt
  unfold InRange
  omega

theorem ofInt?_eq_some_iff : ofInt? z = some w ↔ w.toInt = z := by
  refine ⟨toInt_of_ofInt?, ?_⟩
  rintro rfl
  have hrange : Int64.minValue.toInt ≤ w.toInt ∧ w.toInt ≤ Int64.maxValue.toInt :=
    ⟨w.minValue_le_toInt, w.toInt_le⟩
  rw [ofInt?, if_pos hrange, Int64.ofInt_toInt]

theorem ofInt?_eq_none_iff : ofInt? z = none ↔ ¬ InRange z := by
  have hrange : (Int64.minValue.toInt ≤ z ∧ z ≤ Int64.maxValue.toInt) ↔ InRange z := Iff.rfl
  rw [ofInt?, ite_eq_right_iff, ← hrange]
  simp

/-- Every number in the range is a word. -/
theorem exists_toInt (hz : InRange z) : ∃ w : Word, w.toInt = z := by
  cases h : ofInt? z with
  | none => exact absurd hz (ofInt?_eq_none_iff.1 h)
  | some w => exact ⟨w, ofInt?_eq_some_iff.1 h⟩

/-! ## Code points -/

theorem isScalar_toNat (c : Char) : IsScalar c.toNat := by
  have hvalid : c.toNat < 0xD800 ∨ 0xDFFF < c.toNat ∧ c.toNat < 0x110000 := c.valid
  unfold IsScalar
  omega

theorem toChar?_eq_some_iff : toChar? w = some c ↔ (c.toNat : Int) = w.toInt := by
  unfold toChar?
  constructor
  · intro h
    split at h
    · rename_i hvalid
      cases h
      rw [Char.toNat_ofNat, if_pos hvalid.1]
      exact Int.toNat_of_nonneg hvalid.2
    · cases h
  · intro h
    have hnat : w.toInt.toNat = c.toNat := by omega
    rw [hnat, if_pos ⟨c.valid, by omega⟩, Char.ofNat_toNat]

/-- Every code point that is not a surrogate is a character. -/
theorem exists_char (hz : IsScalar z) : ∃ c : Char, (c.toNat : Int) = z := by
  have hvalid : z.toNat.isValidChar := by
    unfold IsScalar at hz
    unfold Nat.isValidChar
    omega
  have hnonneg : 0 ≤ z := by
    unfold IsScalar at hz
    omega
  refine ⟨Char.ofNat z.toNat, ?_⟩
  rw [Char.toNat_ofNat, if_pos hvalid]
  exact Int.toNat_of_nonneg hnonneg

theorem toChar?_eq_none_iff : toChar? w = none ↔ ¬ IsScalar w.toInt := by
  constructor
  · intro h hscalar
    obtain ⟨c, hc⟩ := exists_char hscalar
    rw [toChar?_eq_some_iff.2 hc] at h
    cases h
  · intro h
    refine Option.eq_none_iff_forall_ne_some.2 fun c hc => h ?_
    rw [← toChar?_eq_some_iff.1 hc]
    exact isScalar_toNat c

theorem toInt_ofChar (c : Char) : (ofChar c).toInt = c.toNat := by
  have hscalar := isScalar_toNat c
  unfold IsScalar at hscalar
  exact Int64.toInt_ofInt_of_le (by omega) (by omega)

/-! ## Quotients and remainders -/

/-- A quotient of words is one, but for that of the least word by minus one. -/
theorem inRange_tdiv_iff (hb : b.toInt ≠ 0) :
    InRange (a.toInt.tdiv b.toInt) ↔ ¬ (a.toInt = -9223372036854775808 ∧ b.toInt = -1) := by
  constructor
  · rintro hrange ⟨ha, hminus⟩
    rw [ha, hminus] at hrange
    exact absurd hrange.2 (by decide)
  · intro h
    have ha := inRange_toInt a
    unfold InRange at ha ⊢
    by_cases hminus : b.toInt = -1
    · have hquotient : a.toInt.tdiv b.toInt = -a.toInt := by
        rw [hminus, Int.tdiv_neg, Int.tdiv_one]
      omega
    by_cases hone : b.toInt = 1
    · rw [hone, Int.tdiv_one]
      exact ha
    · -- The quotient is no more than half of the dividend.
      have hquotient : (a.toInt.tdiv b.toInt).natAbs ≤ a.toInt.natAbs / 2 := by
        rw [Int.natAbs_tdiv]
        exact Nat.div_le_div_left (by omega) (by decide)
      omega

/-- A remainder of words is one. -/
theorem inRange_tmod (hb : b.toInt ≠ 0) : InRange (a.toInt.tmod b.toInt) := by
  have hrange := inRange_toInt b
  have hremainder : (a.toInt.tmod b.toInt).natAbs < b.toInt.natAbs := by
    rw [Int.natAbs_tmod]
    exact Nat.mod_lt _ (by omega)
  unfold InRange at hrange ⊢
  omega

/-! ## Bits -/

/-- The bits of a word are those of the number in two's complement, and from the last one on all are the sign. -/
theorem testBit_toInt (w : Word) (i : Nat) :
    w.toInt.testBit i = if i < 64 then w.toBitVec.getLsbD i else w.toBitVec.msb := by
  have hlt := w.toBitVec.isLt
  rw [← Int64.toInt_toBitVec, BitVec.toInt_eq_msb_cond, ← BitVec.testBit_toNat]
  by_cases hneg : w.toBitVec.msb = true
  · have hcomplement : (w.toBitVec.toNat : Int) - (2 ^ 64 : Nat) =
        Int.negSucc (2 ^ 64 - (w.toBitVec.toNat + 1)) := by
      omega
    rw [if_pos hneg, hcomplement, Int.testBit, Nat.testBit_two_pow_sub_succ hlt]
    by_cases hi : i < 64 <;> simp [hi, hneg]
  · rw [if_neg hneg]
    show w.toBitVec.toNat.testBit i = _
    by_cases hi : i < 64
    · rw [if_pos hi]
    · have hle : 2 ^ 64 ≤ 2 ^ i := Nat.pow_le_pow_right (by decide) (by omega)
      rw [if_neg hi, Nat.testBit_lt_two_pow (by omega)]
      exact (Bool.eq_false_iff.2 hneg).symm

/-- Words of the same bits are the same. -/
theorem eq_of_testBit (h : ∀ i, a.toInt.testBit i = b.toInt.testBit i) : a = b := by
  refine Int64.toBitVec_inj.1 (BitVec.eq_of_getLsbD_eq fun i hi => ?_)
  have hbit := h i
  rwa [testBit_toInt, testBit_toInt, if_pos hi, if_pos hi] at hbit

theorem testBit_and (a b : Word) (i : Nat) :
    (a &&& b).toInt.testBit i = (a.toInt.testBit i && b.toInt.testBit i) := by
  simp only [testBit_toInt, Int64.toBitVec_and, BitVec.getLsbD_and, BitVec.msb_and]
  split <;> rfl

theorem testBit_or (a b : Word) (i : Nat) :
    (a ||| b).toInt.testBit i = (a.toInt.testBit i || b.toInt.testBit i) := by
  simp only [testBit_toInt, Int64.toBitVec_or, BitVec.getLsbD_or, BitVec.msb_or]
  split <;> rfl

theorem testBit_xor (a b : Word) (i : Nat) :
    (a ^^^ b).toInt.testBit i = (a.toInt.testBit i ^^ b.toInt.testBit i) := by
  simp only [testBit_toInt, Int64.toBitVec_xor, BitVec.getLsbD_xor, BitVec.msb_xor]
  split <;> rfl

/-! ## Shifts -/

section Shifts

variable {n : Nat} (hb : b.toInt = n) (hn : n < 64)

include hb hn

/-- An amount in the range is taken as it is. -/
theorem toNat_smod : (b.toBitVec.smod 64).toNat = n := by
  have hsmod : (b.toBitVec.smod 64).toInt = n := by
    rw [BitVec.toInt_smod, Int64.toInt_toBitVec, hb]
    show (n : Int).fmod 64 = n
    rw [Int.fmod_eq_emod_of_nonneg _ (by decide)]
    omega
  have hlt := (b.toBitVec.smod 64).isLt
  rw [BitVec.toInt_eq_toNat_cond] at hsmod
  split at hsmod <;> omega

/-- Shifted to the left, a word is multiplied, and of the product the lowest 64 bits are kept. -/
theorem toInt_shiftLeft : (a <<< b).toInt = (a.toInt * 2 ^ n).bmod (2 ^ 64) := by
  have hshift : (a <<< b).toBitVec = a.toBitVec <<< n := by
    show a.toBitVec <<< (b.toBitVec.smod 64) = _
    rw [BitVec.shiftLeft_eq', toNat_smod hb hn]
  rw [← Int64.toInt_toBitVec, hshift, BitVec.toInt_shiftLeft, Nat.shiftLeft_eq, ← Int64.toInt_toBitVec,
    BitVec.toInt_eq_toNat_bmod, Int.bmod_mul_bmod]
  push_cast
  rfl

/-- Shifted to the right, a word is divided, and the quotient is rounded down. -/
theorem toInt_shiftRight : (a >>> b).toInt = a.toInt / 2 ^ n := by
  have hshift : (a >>> b).toBitVec = a.toBitVec.sshiftRight n := by
    show a.toBitVec.sshiftRight (b.toBitVec.smod 64).toNat = _
    rw [toNat_smod hb hn]
  rw [← Int64.toInt_toBitVec, hshift, BitVec.toInt_sshiftRight, Int.shiftRight_eq_div_pow,
    Int64.toInt_toBitVec]
  push_cast
  rfl

/-- Of the product, that word is left which differs from it by a multiple of the number of words. -/
theorem shiftLeft_eq_iff : a <<< b = w ↔ (2 ^ 64 : Int) ∣ a.toInt * 2 ^ n - w.toInt := by
  have hword : w.toInt.bmod (2 ^ 64) = w.toInt := Int64.toInt_bmod w
  calc a <<< b = w
    _ ↔ (a.toInt * 2 ^ n).bmod (2 ^ 64) = w.toInt.bmod (2 ^ 64) := by
      rw [← Int64.toInt_inj, toInt_shiftLeft hb hn, hword]
    _ ↔ (2 ^ 64 : Int) ∣ a.toInt * 2 ^ n - w.toInt :=
      Int.bmod_eq_bmod_iff_bmod_sub_eq_zero.trans Int.dvd_iff_bmod_eq_zero.symm

/-- The quotient that is rounded down leaves a remainder that is not negative. -/
theorem shiftRight_eq_iff : a >>> b = w ↔ ∃ r, a.toInt = w.toInt * 2 ^ n + r ∧ 0 ≤ r ∧ r < 2 ^ n := by
  have hpos : (0 : Int) < 2 ^ n := by positivity
  rw [← Int64.toInt_inj, toInt_shiftRight hb hn]
  constructor
  · intro h
    refine ⟨a.toInt % 2 ^ n, ?_, Int.emod_nonneg _ hpos.ne', Int.emod_lt_of_pos _ hpos⟩
    rw [← h, mul_comm, Int.mul_ediv_add_emod]
  · rintro ⟨r, hdivision, hnonneg, hlt⟩
    exact ((Int.ediv_emod_unique hpos).2 ⟨by rw [hdivision]; ring, hnonneg, hlt⟩).1

end Shifts

end Scriptling.Word
