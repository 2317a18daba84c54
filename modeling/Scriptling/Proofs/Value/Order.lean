import Scriptling.Proofs.Value.Numbers

/-!
# Scriptling.Proofs.Value.Order -- comparisons are an order

Comparisons are consistent with each other and with equality, also where an integer lies beside a character: if two
values are compared at all, they stand for whole numbers (`standFor_of_comparison`), and every comparison of the two,
in either direction, is one of these numbers (`StandFor.comparison`). This is not a total order on values, since an
integer that is no code point lies nowhere to a character; so three values may well be compared in two pairs and not
in the third.

Operands of a symmetric operator may be exchanged (`binary_swap`): they agree in either order or fail to agree for the
same reason (`coerce_swap`), and operands of one type are combined alike in either order, family by family.
-/

set_option autoImplicit false

namespace Scriptling

/-- The operands of the operator may be exchanged, but for strings that are joined. -/
def BinaryOperator.Symmetric : BinaryOperator → Prop
  | .arithmetic op => op = .add ∨ op = .mul
  | .bitwise _ | .equality _ | .logical _ => True
  | .shift _ | .comparison _ => False

instance (op : BinaryOperator) : Decidable op.Symmetric :=
  match op with
  | .arithmetic op => inferInstanceAs (Decidable (op = .add ∨ op = .mul))
  | .bitwise _ | .equality _ | .logical _ => inferInstanceAs (Decidable True)
  | .shift _ | .comparison _ => inferInstanceAs (Decidable False)

namespace Value

/-- The value is neither a fault nor a float. -/
structure Plain (v : Value) : Prop where
  proper : v.isFault = false
  ne_float : v.type? ≠ some .float

variable {a b c l r l' r' : Value} {x y z : Int} {op : BinaryOperator} {f : Fault}

/-! ## Operands that agree and operands that do not -/

theorem binary_of_undivided (hop : divides op = false) (hl : l.isFault = false) (hr : r.isFault = false)
    (h : coerce l r = .ok (l', r')) : binary op l r = ofExcept (applyFamily op l' r') := by
  rw [binary_of_coerce hl hr h, hop]
  rfl

/-- No operand is made a float. -/
theorem ne_float_of_coerce (h : coerce l r = .ok (l', r')) (hl : l.type? ≠ some .float) :
    l'.type? ≠ some .float := by
  rcases coerce_eq_ok h with ⟨rfl, rfl⟩ | ⟨hchar, -⟩
  · exact hl
  · rw [hchar]
    decide

/-- Operands agree in either order, or they do not for the same reason. -/
theorem coerce_swap (l r : Value) : coerce r l = Prod.swap <$> coerce l r := by
  cases l with
  | int w =>
    cases r with
    | char c =>
      rw [coerce, coerce]
      cases Word.toChar? w <;> rfl
    | _ => rfl
  | char c =>
    cases r with
    | int w =>
      rw [coerce, coerce]
      cases Word.toChar? w <;> rfl
    | _ => rfl
  | _ => cases r <;> rfl

/-! ## Values that are compared -/

/-- The values can be brought to agree, and they stand for the numbers. -/
structure StandFor (a b : Value) (x y : Int) : Prop where
  agree : ∃ a' b', coerce a b = .ok (a', b')
  left : a.number? = some x
  right : b.number? = some y

theorem proper_of_number? (h : a.number? = some x) : a.isFault = false := by
  cases a with
  | fault f => cases h
  | _ => rfl

namespace StandFor

theorem symm (h : StandFor a b x y) : StandFor b a y x := by
  obtain ⟨⟨a', b', hcoerce⟩, ha, hb⟩ := h
  refine ⟨⟨b', a', ?_⟩, hb, ha⟩
  rw [coerce_swap, hcoerce]
  rfl

theorem comparison (h : StandFor a b x y) (op : Comparison) :
    binary (.comparison op) a b = bool (decide (op.Holds x y)) := by
  obtain ⟨⟨a', b', hcoerce⟩, ha, hb⟩ := h
  obtain ⟨htype, ha', hb'⟩ := number?_of_coerce hcoerce
  rw [binary_of_undivided rfl (proper_of_number? ha) (proper_of_number? hb) hcoerce, applyFamily,
    comparison_of_number? op htype (ha'.trans ha) (hb'.trans hb)]
  rfl

theorem equal (h : StandFor a b x y) : binary (.equality .equal) a b = bool (decide (x = y)) := by
  obtain ⟨⟨a', b', hcoerce⟩, ha, hb⟩ := h
  obtain ⟨htype, ha', hb'⟩ := number?_of_coerce hcoerce
  rw [binary_of_undivided rfl (proper_of_number? ha) (proper_of_number? hb) hcoerce, applyFamily, equality,
    equals_of_number? htype (ha'.trans ha) (hb'.trans hb)]
  rfl

end StandFor

/-- What can be compared stands for numbers. -/
theorem standFor_of_comparison {op : Comparison} (ha : a.Plain) (hb : b.Plain)
    (h : (binary (.comparison op) a b).isFault = false) : ∃ x y, StandFor a b x y := by
  cases hcoerce : coerce a b with
  | error f =>
    rw [binary_of_coerce_error ha.proper hb.proper hcoerce] at h
    cases h
  | ok ab =>
    obtain ⟨a', b'⟩ := ab
    obtain ⟨htype, ha', hb'⟩ := number?_of_coerce hcoerce
    rw [binary_of_undivided rfl ha.proper hb.proper hcoerce, applyFamily] at h
    cases hx : a'.number? with
    | none =>
      rw [comparison_of_number?_none op (ne_float_of_coerce hcoerce ha.ne_float) hx] at h
      cases h
    | some x =>
      obtain ⟨y, hy⟩ := exists_number?_of_type? htype hx
      exact ⟨x, y, ⟨a', b', hcoerce⟩, ha'.symm.trans hx, hb'.symm.trans hy⟩

/-! ## The laws of the order -/

/-- Both questions of equality have the same fault or opposite answers. -/
def Complementary (a b : Value) : Prop :=
  (∃ f, binary (.equality .equal) a b = fault f ∧ binary (.equality .notEqual) a b = fault f) ∨
    ∃ p, binary (.equality .equal) a b = bool p ∧ binary (.equality .notEqual) a b = bool (!p)

/-- The answers of the comparisons and of equality fit together: of `lt`, `eq` and `gt`, one is true. -/
structure Ordered (a b : Value) (lt eq gt : Bool) : Prop where
  less : binary (.comparison .less) a b = bool lt
  equal : binary (.equality .equal) a b = bool eq
  greater : binary (.comparison .greater) a b = bool gt
  one : [lt, eq, gt].count true = 1
  lessEqual : binary (.comparison .lessEqual) a b = bool (lt || eq)
  greaterEqual : binary (.comparison .greaterEqual) a b = bool (gt || eq)
  exchanged : binary (.comparison .greater) b a = bool lt

theorem complementary (ha : a.Plain) (hb : b.Plain) : Complementary a b := by
  cases hcoerce : coerce a b with
  | error f =>
    have hfault (op : Equality) : binary (.equality op) a b = fault f :=
      binary_of_coerce_error ha.proper hb.proper hcoerce
    exact .inl ⟨f, hfault .equal, hfault .notEqual⟩
  | ok ab =>
    obtain ⟨a', b'⟩ := ab
    have hanswer (op : Equality) : binary (.equality op) a b = equality op a' b' :=
      binary_of_undivided rfl ha.proper hb.proper hcoerce
    exact .inr ⟨equals a' b', hanswer .equal, hanswer .notEqual⟩

theorem StandFor.ordered (h : StandFor a b x y) :
    Ordered a b (decide (x < y)) (decide (x = y)) (decide (y < x)) where
  less := h.comparison .less
  equal := h.equal
  greater := h.comparison .greater
  lessEqual := by
    rw [h.comparison, ← Bool.decide_or]
    exact congrArg bool (decide_eq_decide.2 Int.le_iff_lt_or_eq)
  greaterEqual := by
    rw [h.comparison, ← Bool.decide_or]
    exact congrArg bool (decide_eq_decide.2 (Int.le_iff_lt_or_eq.trans (or_congr_right eq_comm)))
  exchanged := h.symm.comparison .greater
  one := by
    rcases lt_trichotomy x y with hlt | heq | hgt
    · simp [hlt, hlt.ne, hlt.not_gt]
    · simp [heq]
    · simp [hgt, hgt.ne', hgt.not_gt]

theorem less_trans (ha : a.Plain) (hb : b.Plain) (hc : c.Plain)
    (hab : binary (.comparison .less) a b = bool true) (hbc : binary (.comparison .less) b c = bool true)
    (hac : (binary (.comparison .less) a c).isFault = false) : binary (.comparison .less) a c = bool true := by
  obtain ⟨x, y, hxy⟩ := standFor_of_comparison ha hb (by rw [hab]; rfl)
  obtain ⟨y', z, hyz⟩ := standFor_of_comparison hb hc (by rw [hbc]; rfl)
  obtain ⟨x', z', hxz⟩ := standFor_of_comparison ha hc hac
  -- Each value stands for one number, whatever it is compared with.
  cases hxy.left.symm.trans hxz.left
  cases hxy.right.symm.trans hyz.left
  cases hyz.right.symm.trans hxz.right
  rw [hxy.comparison, bool.injEq, decide_eq_true_iff] at hab
  rw [hyz.comparison, bool.injEq, decide_eq_true_iff] at hbc
  rw [hxz.comparison, bool.injEq, decide_eq_true_iff]
  exact Int.lt_trans hab hbc

/-! ## Operands that are exchanged -/

theorem wordArithmetic_swap {op : Arithmetic} (hop : op = .add ∨ op = .mul) (v w : Word) :
    wordArithmetic op v w = wordArithmetic op w v := by
  rcases hop with rfl | rfl
  · exact congrArg (fun i => orFault .overflow (Word.ofInt? i)) (Int.add_comm _ _)
  · exact congrArg (fun i => orFault .overflow (Word.ofInt? i)) (Int.mul_comm _ _)

theorem wordBitwise_swap (op : Bitwise) (v w : Word) : wordBitwise op v w = wordBitwise op w v := by
  cases op with
  | and => exact Int64.and_comm v w
  | or => exact Int64.or_comm v w
  | xor => exact Int64.xor_comm v w

theorem boolBitwise_swap (op : Bitwise) (p q : Bool) : boolBitwise op p q = boolBitwise op q p := by
  cases op with
  | and => exact Bool.and_comm p q
  | or => exact Bool.or_comm p q
  | xor => exact Bool.xor_comm p q

section Families

variable (htype : l.type? = r.type?)

include htype

theorem arithmetic_swap {op : Arithmetic} (hop : op = .add ∨ op = .mul)
    (hconcat : op = .add → l.type? ≠ some .string) (hl : l.type? ≠ some .float) :
    arithmetic op l r = arithmetic op r l := by
  cases l with
  | int v =>
    cases r <;> cases htype
    rw [arithmetic, arithmetic, wordArithmetic_swap hop]
  | char c =>
    cases r <;> cases htype
    rw [arithmetic, arithmetic, wordArithmetic_swap hop]
  | string s =>
    cases r <;> cases htype
    have hadd : op ≠ .add := fun hadd => hconcat hadd rfl
    rw [arithmetic, arithmetic, if_neg hadd, if_neg hadd]
  | float x => exact absurd rfl hl
  | bool _ | void | fault _ =>
    cases r <;> cases htype
    rfl

theorem bitwise_swap (op : Bitwise) : bitwise op l r = bitwise op r l := by
  cases l with
  | int v =>
    cases r <;> cases htype
    rw [bitwise, bitwise, wordBitwise_swap]
  | bool p =>
    cases r <;> cases htype
    rw [bitwise, bitwise, boolBitwise_swap]
  | float _ | char _ | string _ | void | fault _ =>
    cases r <;> cases htype
    rfl

theorem equality_swap (op : Equality) (hl : l.type? ≠ some .float) : equality op l r = equality op r l := by
  have hequals : equals l r = equals r l := by
    rw [equals_eq hl, equals_eq (htype ▸ hl)]
    exact decide_eq_decide.2 eq_comm
  cases op with
  | equal => exact congrArg bool hequals
  | notEqual => exact congrArg (fun p => bool (!p)) hequals

theorem logical_swap (op : Logical) (hl : l.type? ≠ some .float) : logical op l r = logical op r l := by
  cases hx : l.number? with
  | none =>
    have hy : r.number? = none := by
      refine Option.eq_none_iff_forall_ne_some.2 fun y hy => ?_
      obtain ⟨x, hx'⟩ := exists_number?_of_type? htype.symm hy
      cases hx.symm.trans hx'
    rw [logical, logical, truth_of_number?_none hl hx, truth_of_number?_none (htype ▸ hl) hy]
  | some x =>
    obtain ⟨y, hy⟩ := exists_number?_of_type? htype hx
    rw [logical, logical, truth_of_number? hx, truth_of_number? hy]
    cases op with
    | and => exact congrArg (Except.ok ∘ bool) (Bool.and_comm _ _)
    | or => exact congrArg (Except.ok ∘ bool) (Bool.or_comm _ _)

theorem applyFamily_swap (hop : op.Symmetric) (hl : l.type? ≠ some .float)
    (hconcat : op = .arithmetic .add → l.type? ≠ some .string) : applyFamily op l r = applyFamily op r l := by
  cases op with
  | arithmetic op => exact arithmetic_swap htype hop (fun hadd => hconcat (congrArg _ hadd)) hl
  | bitwise op => exact bitwise_swap htype op
  | equality op => exact congrArg Except.ok (equality_swap htype op hl)
  | logical op => exact logical_swap htype op hl
  | shift _ | comparison _ => cases hop

end Families

theorem divides_of_symmetric (hop : op.Symmetric) : divides op = false := by
  cases op with
  | arithmetic op => rcases hop with rfl | rfl <;> rfl
  | _ => rfl

/-- Exchanged operands come to the same value or to the same fault. -/
theorem binary_swap (hop : op.Symmetric) (ha : a.Plain) (hb : b.Plain)
    (hconcat : op = .arithmetic .add → ¬ (a.type? = some .string ∧ b.type? = some .string)) :
    binary op a b = binary op b a := by
  have hswap := coerce_swap a b
  cases hcoerce : coerce a b with
  | error f =>
    rw [hcoerce] at hswap
    rw [binary_of_coerce_error ha.proper hb.proper hcoerce, binary_of_coerce_error hb.proper ha.proper hswap]
  | ok ab =>
    obtain ⟨a', b'⟩ := ab
    rw [hcoerce] at hswap
    have hop' := divides_of_symmetric hop
    rw [binary_of_undivided hop' ha.proper hb.proper hcoerce, binary_of_undivided hop' hb.proper ha.proper hswap]
    have htype := (number?_of_coerce hcoerce).1
    refine congrArg ofExcept (applyFamily_swap htype hop (ne_float_of_coerce hcoerce ha.ne_float) ?_)
    intro hadd hstring
    rcases coerce_eq_ok hcoerce with ⟨rfl, rfl⟩ | ⟨hchar, -⟩
    · exact hconcat hadd ⟨hstring, htype.symm.trans hstring⟩
    · cases hstring.symm.trans hchar

/-- **Comparisons are an order, and symmetric operators are symmetric.** Let none of the three values be a fault or a
float. The two questions of equality have the same fault or opposite answers. If the first two values are compared,
then exactly one of `<`, `==` and `>` is true of them, and the other comparisons, also those of the two in exchange,
follow from these. If the first is less than the second and the second less than the third, then it is less than the
third, if these two are compared. And operands of a symmetric operator may be exchanged, with the same value or the
same fault, but for two strings that are joined. -/
theorem comparisons_are_an_order (a b c : Value) (ha : a.Plain) (hb : b.Plain) (hc : c.Plain) :
    Complementary a b ∧
      ((binary (.comparison .less) a b).isFault = false → ∃ lt eq gt, Ordered a b lt eq gt) ∧
      (binary (.comparison .less) a b = bool true → binary (.comparison .less) b c = bool true →
        (binary (.comparison .less) a c).isFault = false → binary (.comparison .less) a c = bool true) ∧
      ∀ op : BinaryOperator, op.Symmetric →
        (op = .arithmetic .add → ¬ (a.type? = some .string ∧ b.type? = some .string)) →
        binary op a b = binary op b a := by
  refine ⟨complementary ha hb, fun hab => ?_, less_trans ha hb hc, fun op hop => binary_swap hop ha hb⟩
  obtain ⟨x, y, hxy⟩ := standFor_of_comparison ha hb hab
  exact ⟨_, _, _, hxy.ordered⟩

/-- An integer, a character and an integer again are in order, and the first two are added either way. -/
theorem int_char_int_in_order :
    Complementary (int 65) (char 'B') ∧
      (∃ lt eq gt, Ordered (int 65) (char 'B') lt eq gt) ∧
      binary (.comparison .less) (int 65) (int 67) = bool true ∧
      binary (.arithmetic .add) (int 65) (char 'B') = binary (.arithmetic .add) (char 'B') (int 65) := by
  obtain ⟨hcomplementary, hordered, htrans, hswap⟩ := comparisons_are_an_order (int 65) (char 'B') (int 67)
    ⟨rfl, by decide⟩ ⟨rfl, by decide⟩ ⟨rfl, by decide⟩
  exact ⟨hcomplementary, hordered (by decide), htrans (by decide) (by decide) (by decide),
    hswap (.arithmetic .add) (by decide) (by decide)⟩

end Value

end Scriptling
