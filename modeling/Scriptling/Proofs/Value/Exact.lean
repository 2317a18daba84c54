import Scriptling.Proofs.Value.Numbers

/-!
# Scriptling.Proofs.Value.Exact -- what operators come to, in whole numbers

What a binary operator makes of two operands is stated here by rules, in the arithmetic of whole numbers and apart
from any evaluation: `Value.Computes`. The operands have to agree first, then a divisor must not be zero, then the
operator must have a meaning for the type that they have in common (`Value.Agreed`), and then it combines what they
stand for (`Value.Combines`). There numbers are exact, and a result is a value if there is a value for it.

Unless both operands are floats, `Value.binary` comes to a value if and only if the rules say so: it follows every
rule (`binary_of_computes`), and there is a rule for every case (`exists_computes`). The main result is
`operators_are_exact`.
-/

set_option autoImplicit false

namespace Scriptling

/-! ## Rules on whole numbers -/

/-- The division of `a` by `b` that rounds toward zero: the remainder is smaller than the divisor, and not on the
other side of zero than the dividend. -/
structure Truncates (a b q r : Int) : Prop where
  division : a = b * q + r
  small : r.natAbs < b.natAbs
  nonneg : 0 ≤ a → 0 ≤ r
  nonpos : a ≤ 0 → r ≤ 0

/-- What arithmetic comes to on whole numbers. -/
inductive Arithmetic.Exact : Arithmetic → Int → Int → Int → Prop
  | add (a b : Int) : Exact .add a b (a + b)
  | sub (a b : Int) : Exact .sub a b (a - b)
  | mul (a b : Int) : Exact .mul a b (a * b)
  | div {a b q r : Int} : Truncates a b q r → Exact .div a b q
  | mod {a b q r : Int} : Truncates a b q r → Exact .mod a b r

/-- The remainder of the least word and minus one, whose quotient is no word. -/
def Arithmetic.Unquotable (op : Arithmetic) (a b : Int) : Prop :=
  op = .mod ∧ a = -9223372036854775808 ∧ b = -1

/-- A question of equality. -/
def Equality.Holds {α : Type} : Equality → α → α → Prop
  | .equal, a, b => a = b
  | .notEqual, a, b => a ≠ b

/-- A bitwise operator on one bit. -/
def Bitwise.Holds : Bitwise → Prop → Prop → Prop
  | .and, p, q => p ∧ q
  | .or, p, q => p ∨ q
  | .xor, p, q => ¬ (p ↔ q)

/-- A logical operator. -/
def Logical.Holds : Logical → Prop → Prop → Prop
  | .and, p, q => p ∧ q
  | .or, p, q => p ∨ q

/-! ## Rules on values -/

/-- The operator has a meaning for operands of the type. -/
def BinaryOperator.Supports : BinaryOperator → ValueType → Prop
  | .arithmetic op, t => t ∈ [.int, .float, .char] ∨ t = .string ∧ op = .add
  | .shift _, t => t = .int
  | .comparison _, t => t ∈ [.int, .float, .char, .bool]
  | .equality _, _ => True
  | .bitwise _, t => t ∈ [.int, .bool]
  | .logical _, t => t ∈ [.int, .float, .char, .bool]

namespace Value

/-- The operator divides, and the second operand stands for zero. -/
def DividesByZero (op : BinaryOperator) (r : Value) : Prop :=
  op ∈ [.arithmetic .div, .arithmetic .mod] ∧ r.number? = some 0

/-- What an operator makes of two operands of one type, for which it has a meaning. -/
inductive Combines : BinaryOperator → Value → Value → Value → Prop
  | int {op : Arithmetic} {a b w : Word} :
    op.Exact a.toInt b.toInt w.toInt → ¬ op.Unquotable a.toInt b.toInt →
    Combines (.arithmetic op) (int a) (int b) (int w)
  | overflow {op : Arithmetic} {a b : Word} {z : Int} :
    op.Exact a.toInt b.toInt z → ¬ Word.InRange z ∨ op.Unquotable a.toInt b.toInt →
    Combines (.arithmetic op) (int a) (int b) (fault .overflow)
  | char {op : Arithmetic} {c d e : Char} :
    op.Exact c.toNat d.toNat e.toNat → Combines (.arithmetic op) (char c) (char d) (char e)
  | noChar {op : Arithmetic} {c d : Char} {z : Int} :
    op.Exact c.toNat d.toNat z → ¬ Word.IsScalar z →
    Combines (.arithmetic op) (char c) (char d) (fault .notConvertible)
  | concat (s t : String) : Combines (.arithmetic .add) (string s) (string t) (string (s ++ t))
  /-- The product, reduced to a word. -/
  | shiftLeft {a b w : Word} {n : Nat} :
    b.toInt = n → n < 64 → (2 ^ 64 : Int) ∣ a.toInt * 2 ^ n - w.toInt →
    Combines (.shift .left) (int a) (int b) (int w)
  /-- The quotient, rounded down. -/
  | shiftRight {a b w : Word} {n : Nat} {r : Int} :
    b.toInt = n → n < 64 → a.toInt = w.toInt * 2 ^ n + r → 0 ≤ r → r < 2 ^ n →
    Combines (.shift .right) (int a) (int b) (int w)
  | shiftTooFar {op : Shift} {a b : Word} :
    b.toInt < 0 ∨ 64 ≤ b.toInt → Combines (.shift op) (int a) (int b) (fault .overflow)
  | comparison {op : Comparison} {l r : Value} {a b : Int} {p : Bool} :
    l.number? = some a → r.number? = some b → (p = true ↔ op.Holds a b) →
    Combines (.comparison op) l r (bool p)
  | equality {op : Equality} {l r : Value} {p : Bool} :
    (p = true ↔ op.Holds l r) → Combines (.equality op) l r (bool p)
  | words {op : Bitwise} {a b w : Word} :
    (∀ i, w.toInt.testBit i = true ↔ op.Holds (a.toInt.testBit i = true) (b.toInt.testBit i = true)) →
    Combines (.bitwise op) (int a) (int b) (int w)
  | bools {op : Bitwise} {a b p : Bool} :
    (p = true ↔ op.Holds (a = true) (b = true)) → Combines (.bitwise op) (bool a) (bool b) (bool p)
  | logical {op : Logical} {l r : Value} {a b : Int} {p : Bool} :
    l.number? = some a → r.number? = some b → (p = true ↔ op.Holds (a ≠ 0) (b ≠ 0)) →
    Combines (.logical op) l r (bool p)

/-- What an operator makes of two operands of the type `t`. -/
inductive Agreed (op : BinaryOperator) (t : ValueType) (l r : Value) : Value → Prop
  | zero : DividesByZero op r → Agreed op t l r (fault .divisionByZero)
  | unsupported : ¬ DividesByZero op r → ¬ op.Supports t → Agreed op t l r (fault .unsupportedType)
  | combined {v : Value} :
    ¬ DividesByZero op r → op.Supports t → Combines op l r v → Agreed op t l r v

/-- What an operator makes of two operands. -/
inductive Computes (op : BinaryOperator) : Value → Value → Value → Prop
  | left (f : Fault) (r : Value) : Computes op (fault f) r (fault f)
  | right {l : Value} (f : Fault) : l.isFault = false → Computes op l (fault f) (fault f)
  | same {l r v : Value} {t : ValueType} :
    l.type? = some t → r.type? = some t → Agreed op t l r v → Computes op l r v
  | intChar {w : Word} {c d : Char} {v : Value} :
    (c.toNat : Int) = w.toInt → Agreed op .char (char c) (char d) v → Computes op (int w) (char d) v
  | charInt {w : Word} {c d : Char} {v : Value} :
    (d.toNat : Int) = w.toInt → Agreed op .char (char c) (char d) v → Computes op (char c) (int w) v
  | intNoChar {w : Word} {d : Char} :
    ¬ Word.IsScalar w.toInt → Computes op (int w) (char d) (fault .notConvertible)
  | noCharInt {w : Word} {c : Char} :
    ¬ Word.IsScalar w.toInt → Computes op (char c) (int w) (fault .notConvertible)
  | mismatch {l r : Value} {s t : ValueType} :
    l.type? = some s → r.type? = some t → s ≠ t → (s, t) ∉ [(.int, .char), (.char, .int)] →
    Computes op l r (fault .typeMismatch)

end Value

/-! ## Decisions -/

instance {α : Type} [DecidableEq α] (op : Equality) (a b : α) : Decidable (op.Holds a b) :=
  match op with
  | .equal => inferInstanceAs (Decidable (a = b))
  | .notEqual => inferInstanceAs (Decidable (a ≠ b))

instance (op : Logical) (p q : Prop) [Decidable p] [Decidable q] : Decidable (op.Holds p q) :=
  match op with
  | .and => inferInstanceAs (Decidable (p ∧ q))
  | .or => inferInstanceAs (Decidable (p ∨ q))

/-! ## Arithmetic on whole numbers -/

section Arithmetic

variable {op : Arithmetic} {x y q s z : Int}

theorem truncates_iff (hy : y ≠ 0) : Truncates x y q s ↔ x.tdiv y = q ∧ x.tmod y = s := by
  constructor
  · rintro ⟨hdivision, hsmall, hnonneg, hnonpos⟩
    rcases Int.le_total 0 x with hx | hx
    · have hs := hnonneg hx
      exact (Int.tdiv_tmod_unique hx hy).2 ⟨by rw [hdivision]; ring, hs, by omega⟩
    · have hs := hnonpos hx
      exact (Int.tdiv_tmod_unique' hx hy).2 ⟨by rw [hdivision]; ring, by omega, hs⟩
  · rintro ⟨rfl, rfl⟩
    refine ⟨(Int.mul_tdiv_add_tmod x y).symm, ?_, Int.tmod_nonneg y, fun hx => ?_⟩
    · rw [Int.natAbs_tmod]
      exact Nat.mod_lt _ (by omega)
    · have hneg := Int.tmod_nonneg y (Int.neg_nonneg.2 hx)
      rw [Int.neg_tmod] at hneg
      omega

namespace Arithmetic

/-- The second number is no zero by which the operator would divide. -/
def Defined (op : Arithmetic) (y : Int) : Prop := op ∈ [.div, .mod] → y ≠ 0

theorem Defined.ne_zero_of_div (hy : Defined .div y) : y ≠ 0 := hy (by decide)

theorem Defined.ne_zero_of_mod (hy : Defined .mod y) : y ≠ 0 := hy (by decide)

/-- The rules come to one number, which is the one that is calculated. -/
theorem exact_iff (hy : op.Defined y) : op.Exact x y z ↔ Value.wholeArithmetic op x y = z := by
  constructor
  · rintro (_ | _ | _ | h | h)
    · rfl
    · rfl
    · rfl
    · exact ((truncates_iff hy.ne_zero_of_div).1 h).1
    · exact ((truncates_iff hy.ne_zero_of_mod).1 h).2
  · rintro rfl
    cases op with
    | add => exact .add x y
    | sub => exact .sub x y
    | mul => exact .mul x y
    | div => exact .div ((truncates_iff hy.ne_zero_of_div).2 ⟨rfl, rfl⟩)
    | mod => exact .mod ((truncates_iff hy.ne_zero_of_mod).2 ⟨rfl, rfl⟩)

end Arithmetic

end Arithmetic

namespace Value

/-! ## Arithmetic on words -/

section Words

variable {op : Arithmetic} {a b w : Word} {c d : Char} {z : Int}

theorem wordArithmetic_of_unquotable (h : op.Unquotable a.toInt b.toInt) :
    wordArithmetic op a b = .error .overflow := by
  obtain ⟨rfl, ha, hb⟩ := h
  rw [wordArithmetic, ha, hb]
  rfl

/-- Where a quotient is no obstacle, the result is calculated exactly and kept if it is a word. -/
theorem wordArithmetic_of_quotable (hb : op.Defined b.toInt) (h : ¬ op.Unquotable a.toInt b.toInt) :
    wordArithmetic op a b = orFault .overflow (Word.ofInt? (wholeArithmetic op a.toInt b.toInt)) := by
  cases op with
  | mod =>
    have hquotient : Word.InRange (a.toInt.tdiv b.toInt) :=
      (Word.inRange_tdiv_iff hb.ne_zero_of_mod).2 fun hleast => h ⟨rfl, hleast⟩
    obtain ⟨q, hq⟩ := Word.exists_toInt hquotient
    rw [wordArithmetic, Word.ofInt?_eq_some_iff.2 hq]
    rfl
  | _ => rfl

theorem wordArithmetic_of_exact (hb : op.Defined b.toInt) (h : op.Exact a.toInt b.toInt w.toInt)
    (hquotable : ¬ op.Unquotable a.toInt b.toInt) : wordArithmetic op a b = .ok w := by
  rw [wordArithmetic_of_quotable hb hquotable, orFault_eq_ok, Word.ofInt?_eq_some_iff]
  exact ((Arithmetic.exact_iff hb).1 h).symm

theorem wordArithmetic_of_overflow (hb : op.Defined b.toInt) (h : op.Exact a.toInt b.toInt z)
    (hover : ¬ Word.InRange z ∨ op.Unquotable a.toInt b.toInt) : wordArithmetic op a b = .error .overflow := by
  by_cases hquotable : op.Unquotable a.toInt b.toInt
  · exact wordArithmetic_of_unquotable hquotable
  · have hrange : ¬ Word.InRange z := hover.resolve_right hquotable
    rw [wordArithmetic_of_quotable hb hquotable, (Arithmetic.exact_iff hb).1 h, Word.ofInt?_eq_none_iff.2 hrange]
    rfl

/-- What is calculated with code points is always a word. -/
theorem inRange_of_chars (hd : op.Defined d.toNat) : Word.InRange (wholeArithmetic op c.toNat d.toNat) := by
  have hc := Word.isScalar_toNat c
  have hd' := Word.isScalar_toNat d
  unfold Word.IsScalar at hc hd'
  cases op with
  | add =>
    show Word.InRange ((c.toNat : Int) + d.toNat)
    unfold Word.InRange
    omega
  | sub =>
    show Word.InRange ((c.toNat : Int) - d.toNat)
    unfold Word.InRange
    omega
  | mul =>
    have hproduct : c.toNat * d.toNat ≤ 0x10FFFF * 0x10FFFF := Nat.mul_le_mul (by omega) (by omega)
    show Word.InRange ((c.toNat : Int) * d.toNat)
    unfold Word.InRange
    omega
  | div =>
    have hzero := hd.ne_zero_of_div
    have hquotient := (Word.inRange_tdiv_iff (a := Word.ofChar c) (b := Word.ofChar d))
    rw [Word.toInt_ofChar, Word.toInt_ofChar] at hquotient
    exact (hquotient hzero).2 (by omega)
  | mod =>
    have hzero := hd.ne_zero_of_mod
    have hremainder := Word.inRange_tmod (a := Word.ofChar c) (b := Word.ofChar d)
    rw [Word.toInt_ofChar, Word.toInt_ofChar] at hremainder
    exact hremainder hzero

/-- Calculating with code points does not overflow: there is a word for the result, and all that is left to ask is
whether it is a code point. -/
theorem arithmetic_of_chars (hd : op.Defined d.toNat) (h : op.Exact c.toNat d.toNat z) :
    ∃ w : Word, w.toInt = z ∧
      arithmetic op (char c) (char d) = char <$> orFault .notConvertible (Word.toChar? w) := by
  have hz := (Arithmetic.exact_iff hd).1 h
  obtain ⟨w, hw⟩ := Word.exists_toInt (inRange_of_chars (c := c) hd)
  have hword : wordArithmetic op (Word.ofChar c) (Word.ofChar d) = .ok w := by
    refine wordArithmetic_of_exact ?_ ?_ ?_
    · rwa [Word.toInt_ofChar]
    · rwa [Word.toInt_ofChar, Word.toInt_ofChar, hw, hz]
    · rintro ⟨-, hleast, -⟩
      rw [Word.toInt_ofChar] at hleast
      omega
  refine ⟨w, hw.trans hz, ?_⟩
  rw [arithmetic, hword]
  rfl

end Words

/-! ## Operands of one type -/

section Agreed

variable {op : BinaryOperator} {l r v : Value} {t : ValueType}

theorem divides_iff : divides op = true ↔ op ∈ [.arithmetic .div, .arithmetic .mod] := by
  cases op with
  | arithmetic op => cases op <;> decide
  | _ => simp [divides]

theorem dividesByZero_iff (op : BinaryOperator) (hr : r.type? ≠ some .float) :
    (divides op && r.isZero) = true ↔ DividesByZero op r := by
  rw [Bool.and_eq_true, divides_iff, isZero_iff hr, DividesByZero]

theorem defined_of_number? {op : Arithmetic} {y : Int} (hzero : ¬ DividesByZero (.arithmetic op) r)
    (hr : r.number? = some y) : op.Defined y := by
  rintro hop rfl
  refine hzero ⟨?_, hr⟩
  simpa using hop

theorem type?_ne_float (hv : v.type? = some t) (ht : t ≠ .float) : v.type? ≠ some .float := by
  rw [hv]
  exact fun hsome => ht (Option.some.inj hsome)

theorem numeric_iff (ht : t ≠ .float) : t ∈ [.int, .float, .char, .bool] ↔ t ∈ [.int, .char, .bool] := by
  cases t with
  | float => exact absurd rfl ht
  | _ => decide

/-- An operator without a meaning for the type says so. -/
theorem applyFamily_of_unsupported (hl : l.type? = some t) (hr : r.type? = some t) (ht : t ≠ .float)
    (h : ¬ op.Supports t) : applyFamily op l r = .error .unsupportedType := by
  have hfloat := type?_ne_float hl ht
  have hnone (hnumber : t ∉ [.int, .float, .char, .bool]) : l.number? = none :=
    number?_eq_none hl (mt (numeric_iff ht).2 hnumber)
  cases op with
  | arithmetic op =>
    obtain ⟨hnumber, hconcat⟩ := not_or.1 h
    show arithmetic op l r = _
    unfold arithmetic
    split
    · cases hl
      exact absurd (by decide) hnumber
    · exact absurd rfl hfloat
    · cases hl
      exact absurd (by decide) hnumber
    · cases hl
      exact if_neg fun hop => hconcat ⟨rfl, hop⟩
    · rfl
  | shift op =>
    show shift op l r = _
    unfold shift
    split
    · cases hl
      exact absurd rfl h
    · rfl
  | comparison op => exact comparison_of_number?_none op hfloat (hnone h)
  | equality op => exact absurd trivial h
  | bitwise op =>
    show bitwise op l r = _
    unfold bitwise
    split
    · cases hl
      simp [BinaryOperator.Supports] at h
    · cases hl
      simp [BinaryOperator.Supports] at h
    · rfl
  | logical op =>
    show logical op l r = _
    rw [logical, truth_of_number?_none hfloat (hnone h)]
    rfl

theorem testBit_wordBitwise (op : Bitwise) (a b : Word) (i : Nat) :
    (wordBitwise op a b).toInt.testBit i = true ↔
      op.Holds (a.toInt.testBit i = true) (b.toInt.testBit i = true) := by
  cases op with
  | and =>
    rw [wordBitwise, Word.testBit_and, Bool.and_eq_true]
    rfl
  | or =>
    rw [wordBitwise, Word.testBit_or, Bool.or_eq_true]
    rfl
  | xor =>
    rw [wordBitwise, Word.testBit_xor, Bool.xor_iff_ne, Ne, Bool.eq_iff_iff]
    rfl

theorem boolBitwise_iff (op : Bitwise) (a b : Bool) :
    boolBitwise op a b = true ↔ op.Holds (a = true) (b = true) := by
  cases op with
  | and => exact Bool.and_eq_true_iff
  | or => exact Bool.or_eq_true_iff
  | xor =>
    rw [boolBitwise, Bool.xor_iff_ne, Ne, Bool.eq_iff_iff]
    rfl

theorem logical_of_number? {a b : Int} (op : Logical) (hl : l.number? = some a) (hr : r.number? = some b) :
    logical op l r = .ok (bool (decide (op.Holds (a ≠ 0) (b ≠ 0)))) := by
  rw [logical, truth_of_number? hl, truth_of_number? hr]
  cases op with
  | and => exact congrArg (Except.ok ∘ bool) (Bool.decide_and _ _).symm
  | or => exact congrArg (Except.ok ∘ bool) (Bool.decide_or _ _).symm

theorem equality_eq (op : Equality) (hl : l.type? ≠ some .float) :
    equality op l r = bool (decide (op.Holds l r)) := by
  cases op with
  | equal => exact congrArg bool (equals_eq hl)
  | notEqual =>
    rw [equality, equals_eq hl, ← decide_not]
    rfl

/-- The operators follow the rules for operands of one type. -/
theorem applyFamily_of_combines (htype : l.type? = r.type?) (hfloat : l.type? ≠ some .float)
    (hzero : ¬ DividesByZero op r) (h : Combines op l r v) : ofExcept (applyFamily op l r) = v := by
  cases h with
  | int hexact hquotable =>
    rw [applyFamily, arithmetic, wordArithmetic_of_exact (defined_of_number? hzero rfl) hexact hquotable]
    rfl
  | overflow hexact hover =>
    rw [applyFamily, arithmetic, wordArithmetic_of_overflow (defined_of_number? hzero rfl) hexact hover]
    rfl
  | char hexact =>
    obtain ⟨w, hw, hchars⟩ := arithmetic_of_chars (defined_of_number? hzero rfl) hexact
    rw [applyFamily, hchars, Word.toChar?_eq_some_iff.2 hw.symm]
    rfl
  | noChar hexact hscalar =>
    obtain ⟨w, rfl, hchars⟩ := arithmetic_of_chars (defined_of_number? hzero rfl) hexact
    rw [applyFamily, hchars, Word.toChar?_eq_none_iff.2 hscalar]
    rfl
  | concat s t => rfl
  | shiftLeft hb hn hword =>
    rw [applyFamily, shift, Word.shiftAmount?, if_pos (by omega), ← (Word.shiftLeft_eq_iff hb hn).2 hword]
    rfl
  | shiftRight hb hn hdivision hnonneg hlt =>
    rw [applyFamily, shift, Word.shiftAmount?, if_pos (by omega),
      ← (Word.shiftRight_eq_iff hb hn).2 ⟨_, hdivision, hnonneg, hlt⟩]
    rfl
  | shiftTooFar hfar =>
    rw [applyFamily, shift, Word.shiftAmount?, if_neg (by omega)]
    rfl
  | comparison hl hr hp =>
    rw [applyFamily, comparison_of_number? _ htype hl hr, ← Bool.eq_iff_iff.2 (hp.trans decide_eq_true_iff.symm)]
    rfl
  | equality hp =>
    rw [applyFamily, equality_eq _ hfloat, ← Bool.eq_iff_iff.2 (hp.trans decide_eq_true_iff.symm)]
    rfl
  | @words op a b w hbits =>
    have hword : wordBitwise op a b = w :=
      Word.eq_of_testBit fun i => Bool.eq_iff_iff.2 ((testBit_wordBitwise op a b i).trans (hbits i).symm)
    rw [applyFamily, bitwise, hword]
    rfl
  | @bools op a b p hp =>
    have hbool : boolBitwise op a b = p := Bool.eq_iff_iff.2 ((boolBitwise_iff op a b).trans hp.symm)
    rw [applyFamily, bitwise, hbool]
    rfl
  | logical hl hr hp =>
    rw [applyFamily, logical_of_number? _ hl hr, ← Bool.eq_iff_iff.2 (hp.trans decide_eq_true_iff.symm)]
    rfl

/-- Arithmetic on integers always comes to something. -/
theorem exists_combines_int {op : Arithmetic} {a b : Word} (hb : op.Defined b.toInt) :
    ∃ v, Combines (.arithmetic op) (int a) (int b) v := by
  have hexact := (Arithmetic.exact_iff (x := a.toInt) hb).2 rfl
  by_cases hover : ¬ Word.InRange (wholeArithmetic op a.toInt b.toInt) ∨ op.Unquotable a.toInt b.toInt
  · exact ⟨_, .overflow hexact hover⟩
  · obtain ⟨hrange, hquotable⟩ := not_or.1 hover
    obtain ⟨w, hw⟩ := Word.exists_toInt (not_not.1 hrange)
    exact ⟨_, .int (hw ▸ hexact) hquotable⟩

/-- Arithmetic on characters always comes to something. -/
theorem exists_combines_char {op : Arithmetic} {c d : Char} (hd : op.Defined d.toNat) :
    ∃ v, Combines (.arithmetic op) (char c) (char d) v := by
  have hexact := (Arithmetic.exact_iff (x := c.toNat) hd).2 rfl
  by_cases hscalar : Word.IsScalar (wholeArithmetic op c.toNat d.toNat)
  · obtain ⟨e, he⟩ := Word.exists_char hscalar
    exact ⟨_, .char (he ▸ hexact)⟩
  · exact ⟨_, .noChar hexact hscalar⟩

/-- Shifting always comes to something. -/
theorem exists_combines_shift (op : Shift) (a b : Word) : ∃ v, Combines (.shift op) (int a) (int b) v := by
  by_cases hfar : b.toInt < 0 ∨ 64 ≤ b.toInt
  · exact ⟨_, .shiftTooFar hfar⟩
  · have hb : b.toInt = b.toInt.toNat := by omega
    have hn : b.toInt.toNat < 64 := by omega
    cases op with
    | left => exact ⟨_, .shiftLeft hb hn ((Word.shiftLeft_eq_iff hb hn).1 rfl)⟩
    | right =>
      obtain ⟨_, hdivision, hnonneg, hlt⟩ := (Word.shiftRight_eq_iff (a := a) hb hn).1 rfl
      exact ⟨_, .shiftRight hb hn hdivision hnonneg hlt⟩

/-- An operator comes to something wherever it has a meaning. -/
theorem exists_combines (hl : l.type? = some t) (hr : r.type? = some t) (ht : t ≠ .float)
    (hzero : ¬ DividesByZero op r) (h : op.Supports t) : ∃ v, Combines op l r v := by
  have hnumbers (hmem : t ∈ [.int, .float, .char, .bool]) :
      (∃ a, l.number? = some a) ∧ ∃ b, r.number? = some b :=
    have hnumber := (numeric_iff ht).1 hmem
    ⟨exists_number? hl hnumber, exists_number? hr hnumber⟩
  cases op with
  | arithmetic op =>
    cases l with
    | int a =>
      cases hl
      cases r <;> cases hr
      exact exists_combines_int (defined_of_number? hzero rfl)
    | char c =>
      cases hl
      cases r <;> cases hr
      exact exists_combines_char (defined_of_number? hzero rfl)
    | string s =>
      cases hl
      cases r <;> cases hr
      obtain ⟨-, rfl⟩ := h.resolve_left (by decide)
      exact ⟨_, .concat _ _⟩
    | float x =>
      cases hl
      exact absurd rfl ht
    | bool _ | void =>
      cases hl
      simp [BinaryOperator.Supports] at h
    | fault f => cases hl
  | shift op =>
    cases h
    cases l <;> cases hl
    cases r <;> cases hr
    exact exists_combines_shift op _ _
  | comparison op =>
    obtain ⟨⟨a, ha⟩, b, hb⟩ := hnumbers h
    exact ⟨_, .comparison ha hb decide_eq_true_iff⟩
  | equality op => exact ⟨_, .equality decide_eq_true_iff⟩
  | bitwise op =>
    cases l with
    | int a =>
      cases hl
      cases r <;> cases hr
      exact ⟨_, .words (testBit_wordBitwise op _ _)⟩
    | bool a =>
      cases hl
      cases r <;> cases hr
      exact ⟨_, .bools (boolBitwise_iff op _ _)⟩
    | float _ | char _ | string _ | void =>
      cases hl
      simp [BinaryOperator.Supports] at h
    | fault f => cases hl
  | logical op =>
    obtain ⟨⟨a, ha⟩, b, hb⟩ := hnumbers h
    exact ⟨_, .logical ha hb decide_eq_true_iff⟩

end Agreed

/-! ## All operands -/

section Operands

variable {op : BinaryOperator} {l r l' r' v : Value} {t : ValueType}

/-- A type that two operands have in common is not that of floats unless both are. -/
theorem ne_float_of_type? (hl : l.type? = some t) (hr : r.type? = some t)
    (hfloat : l.type? ≠ some .float ∨ r.type? ≠ some .float) : t ≠ .float := by
  rintro rfl
  exact hfloat.elim (absurd hl) (absurd hr)

/-- Operands that agree are operated on as the rules say. -/
theorem binary_of_agreed (hl : l.isFault = false) (hr : r.isFault = false) (hcoerce : coerce l r = .ok (l', r'))
    (hl' : l'.type? = some t) (hr' : r'.type? = some t) (ht : t ≠ .float) (h : Agreed op t l' r' v) :
    binary op l r = v := by
  have hzero := dividesByZero_iff op (type?_ne_float hr' ht)
  rw [binary_of_coerce hl hr hcoerce]
  cases h with
  | zero hdivides =>
    rw [if_pos (hzero.2 hdivides)]
    rfl
  | unsupported hdivides hsupports =>
    rw [if_neg (mt hzero.1 hdivides), applyFamily_of_unsupported hl' hr' ht hsupports]
    rfl
  | combined hdivides _ hcombines =>
    rw [if_neg (mt hzero.1 hdivides)]
    exact applyFamily_of_combines (hl'.trans hr'.symm) (type?_ne_float hl' ht) hdivides hcombines

theorem exists_agreed (op : BinaryOperator) (hl : l.type? = some t) (hr : r.type? = some t) (ht : t ≠ .float) :
    ∃ v, Agreed op t l r v := by
  by_cases hzero : DividesByZero op r
  · exact ⟨_, .zero hzero⟩
  by_cases hsupports : op.Supports t
  · obtain ⟨v, hv⟩ := exists_combines hl hr ht hzero hsupports
    exact ⟨v, .combined hzero hsupports hv⟩
  · exact ⟨_, .unsupported hzero hsupports⟩

/-- The operators follow the rules. -/
theorem binary_of_computes (hfloat : l.type? ≠ some .float ∨ r.type? ≠ some .float) (h : Computes op l r v) :
    binary op l r = v := by
  cases h with
  | left f r => rfl
  | right f hproper => exact binary_fault_right hproper op f
  | @same l r v t hlt hrt hagreed =>
    exact binary_of_agreed (Fits.proper (.inl hlt)) (Fits.proper (.inl hrt))
      (coerce_of_type? (hlt.trans hrt.symm)) hlt hrt (ne_float_of_type? hlt hrt hfloat) hagreed
  | intChar hcode hagreed =>
    refine binary_of_agreed rfl rfl ?_ rfl rfl (by decide) hagreed
    rw [coerce, Word.toChar?_eq_some_iff.2 hcode]
    rfl
  | charInt hcode hagreed =>
    refine binary_of_agreed rfl rfl ?_ rfl rfl (by decide) hagreed
    rw [coerce, Word.toChar?_eq_some_iff.2 hcode]
    rfl
  | intNoChar hscalar =>
    refine binary_of_coerce_error rfl rfl ?_
    rw [coerce, Word.toChar?_eq_none_iff.2 hscalar]
    rfl
  | noCharInt hscalar =>
    refine binary_of_coerce_error rfl rfl ?_
    rw [coerce, Word.toChar?_eq_none_iff.2 hscalar]
    rfl
  | @mismatch l r s t hls hrt hne hpair =>
    exact binary_of_coerce_error (Fits.proper (.inl hls)) (Fits.proper (.inl hrt))
      (coerce_of_mismatch hls hrt hne hpair)

/-- There is a rule for an integer and a character, whether or not the integer is a code point. -/
theorem exists_computes_intChar (op : BinaryOperator) (w : Word) (d : Char) :
    ∃ v, Computes op (int w) (char d) v := by
  by_cases hscalar : Word.IsScalar w.toInt
  · obtain ⟨c, hc⟩ := Word.exists_char hscalar
    obtain ⟨v, hv⟩ := exists_agreed op (l := char c) (r := char d) rfl rfl (by decide)
    exact ⟨v, .intChar hc hv⟩
  · exact ⟨_, .intNoChar hscalar⟩

theorem exists_computes_charInt (op : BinaryOperator) (c : Char) (w : Word) :
    ∃ v, Computes op (char c) (int w) v := by
  by_cases hscalar : Word.IsScalar w.toInt
  · obtain ⟨d, hd⟩ := Word.exists_char hscalar
    obtain ⟨v, hv⟩ := exists_agreed op (l := char c) (r := char d) rfl rfl (by decide)
    exact ⟨v, .charInt hd hv⟩
  · exact ⟨_, .noCharInt hscalar⟩

/-- There is a rule for every case. -/
theorem exists_computes (op : BinaryOperator) (hfloat : l.type? ≠ some .float ∨ r.type? ≠ some .float) :
    ∃ v, Computes op l r v := by
  cases hl : l.type? with
  | none =>
    obtain ⟨f, rfl⟩ := isFault_iff.1 (type?_eq_none_iff.1 hl)
    exact ⟨_, .left f r⟩
  | some s =>
    cases hr : r.type? with
    | none =>
      obtain ⟨f, rfl⟩ := isFault_iff.1 (type?_eq_none_iff.1 hr)
      exact ⟨_, .right f (Fits.proper (.inl hl))⟩
    | some t =>
      by_cases hsame : s = t
      · subst hsame
        obtain ⟨v, hv⟩ := exists_agreed op hl hr (ne_float_of_type? hl hr hfloat)
        exact ⟨v, .same hl hr hv⟩
      by_cases hpair : (s, t) ∈ [(.int, .char), (.char, .int)]
      · rcases List.mem_pair.1 hpair with h | h
        · cases h
          cases l <;> cases hl
          cases r <;> cases hr
          exact exists_computes_intChar op _ _
        · cases h
          cases l <;> cases hl
          cases r <;> cases hr
          exact exists_computes_charInt op _ _
      · exact ⟨_, .mismatch hl hr hsame hpair⟩

/-- **Operators are exact, fault for fault.** Unless both operands are floats, a binary operator comes to the value or
fault that the rules give, and the rules give no other. -/
theorem operators_are_exact (op : BinaryOperator) (l r v : Value)
    (hfloat : l.type? ≠ some .float ∨ r.type? ≠ some .float) : binary op l r = v ↔ Computes op l r v := by
  constructor
  · rintro rfl
    obtain ⟨v, hv⟩ := exists_computes op hfloat
    rwa [binary_of_computes hfloat hv]
  · exact binary_of_computes hfloat

/-- The remainder of the least integer by minus one would be zero, but it is an overflow; a character and an integer
are added as code points; and a surrogate is no character to be compared with one. -/
theorem remainder_sum_and_comparison_exact :
    Computes (.arithmetic .mod) (int Int64.minValue) (int (-1)) (fault .overflow) ∧
      Computes (.arithmetic .add) (char 'A') (int 1) (char 'B') ∧
      Computes (.comparison .less) (int 0xD800) (char 'A') (fault .notConvertible) :=
  ⟨(operators_are_exact _ _ _ _ (.inl (by decide))).1 (by decide),
    (operators_are_exact _ _ _ _ (.inl (by decide))).1 (by decide),
    (operators_are_exact _ _ _ _ (.inl (by decide))).1 (by decide)⟩

end Operands

end Value

end Scriptling
