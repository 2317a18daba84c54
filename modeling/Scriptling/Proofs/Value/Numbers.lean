import Scriptling.Proofs.Number.Words
import Scriptling.Proofs.Value.Types

/-!
# Scriptling.Proofs.Value.Numbers -- the numbers that values stand for

An integer stands for itself, a character for its code point, false for zero and true for one. Operators that compare
two values or ask for their truth see nothing else of them (`comparison_of_number?`, `equals_of_number?`,
`truth_of_number?`), and an integer that is made a character to agree with another one stands for the same number as
before (`number?_of_coerce`). So what these operators make of integers and characters, in any mixture, is told by
the order of whole numbers. Floats are left out: not every one of them lies somewhere.
-/

set_option autoImplicit false

namespace Scriptling

/-- A comparison of numbers. -/
def Comparison.Holds : Comparison → Int → Int → Prop
  | .less, a, b => a < b
  | .greater, a, b => b < a
  | .lessEqual, a, b => a ≤ b
  | .greaterEqual, a, b => b ≤ a

instance (op : Comparison) (a b : Int) : Decidable (op.Holds a b) :=
  match op with
  | .less => inferInstanceAs (Decidable (a < b))
  | .greater => inferInstanceAs (Decidable (b < a))
  | .lessEqual => inferInstanceAs (Decidable (a ≤ b))
  | .greaterEqual => inferInstanceAs (Decidable (b ≤ a))

namespace Value

/-- The number that a value stands for: an integer for itself, a character for its code point, false for zero and
true for one. -/
def number? : Value → Option Int
  | int w => some w.toInt
  | char c => some c.toNat
  | bool b => some b.toNat
  | _ => none

variable {l r v : Value} {a b : Int} {t : ValueType}

/-- Which values stand for numbers, is told by their type. -/
theorem isSome_number? (hv : v.type? = some t) : v.number?.isSome = decide (t ∈ [.int, .char, .bool]) := by
  cases v <;> cases hv <;> rfl

theorem exists_number? (hv : v.type? = some t) (ht : t ∈ [.int, .char, .bool]) : ∃ a, v.number? = some a := by
  rw [← Option.isSome_iff_exists, isSome_number? hv, decide_eq_true_iff]
  exact ht

theorem number?_eq_none (hv : v.type? = some t) (ht : t ∉ [.int, .char, .bool]) : v.number? = none := by
  rw [← Option.not_isSome_iff_eq_none, isSome_number? hv, decide_eq_true_iff]
  exact ht

/-- Values of one type stand for numbers together. -/
theorem exists_number?_of_type? (htype : l.type? = r.type?) (hl : l.number? = some a) : ∃ b, r.number? = some b := by
  cases l <;> cases hl <;> cases r <;> cases htype <;> exact ⟨_, rfl⟩

/-- Values of one type that stand for numbers are the same if the numbers are. -/
theorem eq_iff_of_number? (htype : l.type? = r.type?) (hl : l.number? = some a) (hr : r.number? = some b) :
    l = r ↔ a = b := by
  cases l with
  | int w =>
    cases r <;> cases htype
    cases hl
    cases hr
    rw [int.injEq, Int64.toInt_inj]
  | char c =>
    cases r <;> cases htype
    cases hl
    cases hr
    rw [char.injEq, Int.natCast_inj, Char.toNat_inj]
  | bool p =>
    cases r <;> cases htype
    cases hl
    cases hr
    cases p <;> decide +revert
  | _ => cases hl

/-! ## Operators on values of one type -/

/-- A comparison admits the order of two numbers if it holds of them. -/
theorem admits_compare (op : Comparison) (a b : Int) : admits op (compare a b) = decide (op.Holds a b) := by
  refine Bool.eq_iff_iff.2 ?_
  rw [decide_eq_true_iff]
  cases op with
  | less => exact Ordering.isLT_iff_eq_lt.trans compare_lt_iff_lt
  | greater => exact Ordering.isGT_iff_eq_gt.trans compare_gt_iff_gt
  | lessEqual => exact Std.isLE_compare
  | greaterEqual => exact Std.isGE_compare

theorem compare_natCast (m n : Nat) : compare (m : Int) n = compare m n := by
  simp only [compare, compareOfLessAndEq, Int.ofNat_lt, Int.natCast_inj]

theorem order_of_number? (htype : l.type? = r.type?) (hl : l.number? = some a) (hr : r.number? = some b) :
    order l r = .ok (some (compare a b)) := by
  cases l with
  | int w =>
    cases r <;> cases htype
    cases hl
    cases hr
    rfl
  | char c =>
    cases r <;> cases htype
    cases hl
    cases hr
    rw [compare_natCast, order]
  | bool p =>
    cases r <;> cases htype
    cases hl
    cases hr
    rw [compare_natCast, order]
  | _ => cases hl

theorem comparison_of_number? (op : Comparison) (htype : l.type? = r.type?) (hl : l.number? = some a)
    (hr : r.number? = some b) : comparison op l r = .ok (bool (decide (op.Holds a b))) := by
  rw [← admits_compare, comparison, order_of_number? htype hl hr]
  rfl

/-- What stands for no number is not compared. -/
theorem comparison_of_number?_none (op : Comparison) (hfloat : l.type? ≠ some .float) (hl : l.number? = none) :
    comparison op l r = .error .unsupportedType := by
  cases l with
  | string _ | void | fault _ => rfl
  | float x => exact absurd rfl hfloat
  | int _ | char _ | bool _ => cases hl

theorem equals_eq (hfloat : l.type? ≠ some .float) : equals l r = decide (l = r) := by
  cases l with
  | float x => exact absurd rfl hfloat
  | _ => rfl

theorem equals_of_number? (htype : l.type? = r.type?) (hl : l.number? = some a) (hr : r.number? = some b) :
    equals l r = decide (a = b) := by
  have hfloat : l.type? ≠ some .float := by
    cases l with
    | float x => cases hl
    | _ => exact nofun
  rw [equals_eq hfloat]
  exact decide_eq_decide.2 (eq_iff_of_number? htype hl hr)

/-- A number is true if it is not zero. -/
theorem truth_of_number? (hv : v.number? = some a) : truth v = .ok (decide (a ≠ 0)) := by
  cases v with
  | int w =>
    cases hv
    rfl
  | char c =>
    cases hv
    have hzero : c ≠ '\x00' ↔ (c.toNat : Int) ≠ 0 := by
      rw [Ne, Ne, Int.natCast_eq_zero, ← Char.toNat_inj]
      rfl
    exact congrArg Except.ok (decide_eq_decide.2 hzero)
  | bool p =>
    cases hv
    cases p <;> rfl
  | _ => cases hv

theorem truth_of_number?_none (hfloat : v.type? ≠ some .float) (hv : v.number? = none) :
    truth v = .error .unsupportedType := by
  cases v with
  | string _ | void | fault _ => rfl
  | float x => exact absurd rfl hfloat
  | int _ | char _ | bool _ => cases hv

/-- A divisor is zero if it stands for zero. -/
theorem isZero_iff (hfloat : v.type? ≠ some .float) : v.isZero = true ↔ v.number? = some 0 := by
  cases v with
  | int w => simp [isZero, number?]
  | float x => exact absurd rfl hfloat
  | char c =>
    rw [isZero, decide_eq_true_iff, number?, Option.some.injEq, Int.natCast_eq_zero, ← Char.toNat_inj]
    rfl
  | bool p => cases p <;> simp [isZero, number?]
  | string _ | void | fault _ => simp [isZero, number?]

/-! ## Operands that agree -/

/-- Operands that have come to agree are of one type and stand for the numbers for which they stood. -/
theorem number?_of_coerce {l' r' : Value} (h : coerce l r = .ok (l', r')) :
    l'.type? = r'.type? ∧ l'.number? = l.number? ∧ r'.number? = r.number? := by
  have hkept {w : Word} {d : Char} (hd : orFault .notConvertible (Word.toChar? w) = .ok d) :
      (char d).number? = (int w).number? :=
    congrArg some (Word.toChar?_eq_some_iff.1 (orFault_eq_ok.1 hd))
  unfold coerce at h
  split at h
  · obtain ⟨d, hd, hv⟩ := bind_eq_ok.1 h
    cases hv
    exact ⟨rfl, hkept hd, rfl⟩
  · obtain ⟨d, hd, hv⟩ := bind_eq_ok.1 h
    cases hv
    exact ⟨rfl, rfl, hkept hd⟩
  · split at h
    · rename_i htype
      cases h
      exact ⟨htype, rfl, rfl⟩
    · cases h

end Value

end Scriptling
