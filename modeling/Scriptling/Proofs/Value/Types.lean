import Scriptling.Value.Convert
import Scriptling.Value.Operator

/-!
# Scriptling.Proofs.Value.Types -- what operators yield

An operator that yields something else than a fault was given no fault (`proper_of_binary` and its like), and
of what type the result of an operator is can be told from the types of its operands, whenever there is a
result: `of_binary`, `of_unary` and `of_convert`. An operand may also be nothing at all, as that of a
call that returns nothing; but then only a question of equality has a result. No operator yields nothing.
-/

set_option autoImplicit false

namespace Scriptling

/-- The type that the two operands of an arithmetic operator are brought to. -/
def ValueType.common? (s t : ValueType) : Option ValueType :=
  if s = t then some s
  else if s = .int ∧ t = .char ∨ s = .char ∧ t = .int then some .char
  else none

/-- The type of what an operator yields, by the types of its operands. -/
def BinaryOperator.type? (op : BinaryOperator) (s t : ValueType) : Option ValueType :=
  match op with
  | .comparison _ | .equality _ | .logical _ => some .bool
  | .arithmetic _ => s.common? t
  | .bitwise _ | .shift _ => if s = t then some s else none

namespace Value

/-- The value is of the type, or it is nothing at all. -/
def Fits (v : Value) (t : ValueType) : Prop := v.type? = some t ∨ v = void

/-- The value is of the type, and it is something. -/
structure Of (v : Value) (t : ValueType) : Prop where
  type : v.type? = some t
  ne_void : t ≠ .void

variable {l r v : Value} {s t : ValueType}

theorem of_int (w : Word) : (int w).Of .int := ⟨rfl, nofun⟩

theorem of_float (x : Float) : (float x).Of .float := ⟨rfl, nofun⟩

theorem of_bool (b : Bool) : (bool b).Of .bool := ⟨rfl, nofun⟩

theorem of_string (s : String) : (string s).Of .string := ⟨rfl, nofun⟩

theorem of_char (c : Char) : (char c).Of .char := ⟨rfl, nofun⟩

theorem Of.fits (h : v.Of t) : v.Fits t := .inl h.type

theorem Of.value_ne_void (h : v.Of t) : v ≠ void := by
  rintro rfl
  exact h.ne_void (Option.some.inj h.type).symm

/-- A value that is something is of the one type that it fits. -/
theorem Of.eq (h : v.Of s) (ht : v.Fits t) : s = t := by
  rcases ht with ht | hvoid
  · exact Option.some.inj (h.type.symm.trans ht)
  · exact absurd hvoid h.value_ne_void

/-- Faults fit no type. -/
theorem Fits.proper (h : v.Fits t) : v.isFault = false := by
  rcases h with htype | rfl
  · cases v with
    | fault f => cases htype
    | _ => rfl
  · rfl

/-! ## Results and faults -/

theorem orFault_eq_ok {α : Type} {f : Fault} {o : Option α} {a : α} :
    orFault f o = .ok a ↔ o = some a := by
  cases o <;> simp [orFault]

theorem map_eq_ok {α β : Type} {x : Except Fault α} {f : α → β} {b : β} :
    f <$> x = .ok b ↔ ∃ a, x = .ok a ∧ f a = b := by
  cases x <;> simp [Functor.map, Except.map]

theorem bind_eq_ok {α β : Type} {x : Except Fault α} {f : α → Except Fault β} {b : β} :
    x >>= f = .ok b ↔ ∃ a, x = .ok a ∧ f a = .ok b := by
  cases x <;> simp [Bind.bind, Except.bind]

/-- A value that is no fault comes from an operation that has a result. -/
theorem ofExcept_proper {x : Except Fault Value} (h : (ofExcept x).isFault = false) :
    x = .ok (ofExcept x) := by
  cases x with
  | ok v => rfl
  | error f => cases h

/-! ## Operators forward faults -/

theorem proper_of_convert (h : (v.convert t).isFault = false) : v.isFault = false := by
  cases v with
  | fault f => exact h
  | _ => rfl

theorem proper_of_unary {op : UnaryOperator} (h : (unary op v).isFault = false) :
    v.isFault = false := by
  cases v with
  | fault f =>
    cases op <;> exact h
  | _ => rfl

theorem proper_of_binary {op : BinaryOperator} (h : (binary op l r).isFault = false) :
    l.isFault = false ∧ r.isFault = false := by
  cases l with
  | fault f => cases h
  | _ =>
    cases r with
    | fault f => cases h
    | _ => exact ⟨rfl, rfl⟩

/-- The second operand's fault is handed on if the first has none. -/
theorem binary_fault_right (hl : l.isFault = false) (op : BinaryOperator) (f : Fault) :
    binary op l (fault f) = fault f := by
  cases l with
  | fault g => cases hl
  | _ => rfl

/-! ## Operands of one type, by family -/

/-- Arithmetic stays in the type of its operands. -/
theorem of_arithmetic {op : Arithmetic} (h : arithmetic op l r = .ok v) :
    ∃ t, l.Of t ∧ r.Of t ∧ v.Of t := by
  unfold arithmetic at h
  split at h
  · obtain ⟨w, -, rfl⟩ := map_eq_ok.1 h
    exact ⟨.int, of_int _, of_int _, of_int _⟩
  · cases h
    exact ⟨.float, of_float _, of_float _, of_float _⟩
  · obtain ⟨code, -, hchar⟩ := bind_eq_ok.1 h
    obtain ⟨c, -, rfl⟩ := map_eq_ok.1 hchar
    exact ⟨.char, of_char _, of_char _, of_char _⟩
  · split at h
    · cases h
      exact ⟨.string, of_string _, of_string _, of_string _⟩
    · cases h
  · cases h

/-- Bits are combined in words and in truth values. -/
theorem of_bitwise {op : Bitwise} (h : bitwise op l r = .ok v) :
    ∃ t, t ≠ .char ∧ l.Of t ∧ r.Of t ∧ v.Of t := by
  unfold bitwise at h
  split at h
  · cases h
    exact ⟨.int, nofun, of_int _, of_int _, of_int _⟩
  · cases h
    exact ⟨.bool, nofun, of_bool _, of_bool _, of_bool _⟩
  · cases h

/-- Only words are shifted. -/
theorem of_shift {op : Shift} (h : shift op l r = .ok v) : l.Of .int ∧ r.Of .int ∧ v.Of .int := by
  unfold shift at h
  split at h
  · obtain ⟨n, -, hv⟩ := bind_eq_ok.1 h
    cases hv
    exact ⟨of_int _, of_int _, of_int _⟩
  · cases h

theorem of_comparison {op : Comparison} (h : comparison op l r = .ok v) : v.Of .bool := by
  obtain ⟨o, -, hv⟩ := bind_eq_ok.1 h
  cases hv
  exact of_bool _

theorem of_equality (op : Equality) (l r : Value) : (equality op l r).Of .bool := by
  cases op <;> exact of_bool _

theorem of_logical {op : Logical} (h : logical op l r = .ok v) : v.Of .bool := by
  obtain ⟨a, -, hright⟩ := bind_eq_ok.1 h
  obtain ⟨b, -, hv⟩ := bind_eq_ok.1 hright
  cases hv
  exact of_bool _

/-! ## Operators -/

/-- Operands are left as they are, unless they are an integer and a character, of which two characters are
made. -/
theorem coerce_eq_ok {l' r' : Value} (h : coerce l r = .ok (l', r')) :
    l' = l ∧ r' = r ∨
      l'.type? = some .char ∧
        (l.type? = some .int ∧ r.type? = some .char ∨ l.type? = some .char ∧ r.type? = some .int) := by
  unfold coerce at h
  split at h
  · obtain ⟨d, -, hv⟩ := bind_eq_ok.1 h
    cases hv
    exact .inr ⟨rfl, .inl ⟨rfl, rfl⟩⟩
  · obtain ⟨d, -, hv⟩ := bind_eq_ok.1 h
    cases hv
    exact .inr ⟨rfl, .inr ⟨rfl, rfl⟩⟩
  · split at h
    · cases h
      exact .inl ⟨rfl, rfl⟩
    · cases h

theorem coerce_of_type? (h : l.type? = r.type?) : coerce l r = .ok (l, r) := by
  unfold coerce
  split
  · cases h
  · cases h
  · exact if_pos h

theorem coerce_of_mismatch (hl : l.type? = some s) (hr : r.type? = some t) (hne : s ≠ t)
    (hpair : (s, t) ∉ [(.int, .char), (.char, .int)]) : coerce l r = .error .typeMismatch := by
  unfold coerce
  split
  · cases hl
    cases hr
    exact absurd (by decide) hpair
  · cases hl
    cases hr
    exact absurd (by decide) hpair
  · refine if_neg fun h => hne (Option.some.inj ?_)
    rw [← hl, ← hr, h]

/-- Two values that are brought to a common type and are something there have that type in common. -/
theorem common?_of_coerce {l' r' : Value} {u : ValueType} (h : coerce l r = .ok (l', r'))
    (hl' : l'.Of u) (hr' : r'.Of u) (hl : l.Fits s) (hr : r.Fits t) : s.common? t = some u := by
  rcases coerce_eq_ok h with ⟨rfl, rfl⟩ | ⟨hchar, hpair⟩
  · rw [← hl'.eq hl, ← hr'.eq hr, ValueType.common?, if_pos rfl]
  · have hu : u = .char := Option.some.inj (hl'.type.symm.trans hchar)
    rcases hpair with ⟨hi, hc⟩ | ⟨hc, hi⟩
    · have hs := Of.eq ⟨hi, by decide⟩ hl
      have ht := Of.eq ⟨hc, by decide⟩ hr
      rw [← hs, ← ht, hu]
      rfl
    · have hs := Of.eq ⟨hc, by decide⟩ hl
      have ht := Of.eq ⟨hi, by decide⟩ hr
      rw [← hs, ← ht, hu]
      rfl

/-- Where no characters are operated on, no operand has been made into one. -/
theorem eq_of_coerce {l' r' : Value} {u : ValueType} (h : coerce l r = .ok (l', r')) (hu : u ≠ .char)
    (hl' : l'.Of u) (hr' : r'.Of u) (hl : l.Fits s) (hr : r.Fits t) : s = u ∧ t = u := by
  rcases coerce_eq_ok h with ⟨rfl, rfl⟩ | ⟨hchar, -⟩
  · exact ⟨(hl'.eq hl).symm, (hr'.eq hr).symm⟩
  · exact absurd (Option.some.inj (hl'.type.symm.trans hchar)) hu

/-- Operands that are no faults are operated on. -/
theorem binary_of_proper {op : BinaryOperator} (hl : l.isFault = false) (hr : r.isFault = false) :
    binary op l r = ofExcept (applyBinary op l r) := by
  cases l with
  | fault f => cases hl
  | _ =>
    cases r with
    | fault f => cases hr
    | _ => rfl

/-- Operands that agree are operated on, if the second is no divisor that is zero. -/
theorem binary_of_coerce {op : BinaryOperator} {l' r' : Value} (hl : l.isFault = false) (hr : r.isFault = false)
    (h : coerce l r = .ok (l', r')) : binary op l r =
      ofExcept (if divides op && r'.isZero then .error .divisionByZero else applyFamily op l' r') := by
  rw [binary_of_proper hl hr, applyBinary, h]
  rfl

/-- That operands do not agree is the fault of the whole. -/
theorem binary_of_coerce_error {op : BinaryOperator} {f : Fault} (hl : l.isFault = false)
    (hr : r.isFault = false) (h : coerce l r = .error f) : binary op l r = fault f := by
  rw [binary_of_proper hl hr, applyBinary, h]
  rfl

/-- A binary operator that has a result yields what the types of its operands promise. -/
theorem of_binary {op : BinaryOperator} (h : (binary op l r).isFault = false) (hl : l.Fits s)
    (hr : r.Fits t) : ∃ u, op.type? s t = some u ∧ (binary op l r).Of u := by
  rw [binary_of_proper hl.proper hr.proper] at h ⊢
  have hok := ofExcept_proper h
  generalize ofExcept (applyBinary op l r) = v at hok
  obtain ⟨⟨l', r'⟩, hcoerce, hfamily⟩ := bind_eq_ok.1 hok
  dsimp only at hfamily
  split at hfamily
  · cases hfamily
  cases op with
  | arithmetic op =>
    obtain ⟨u, hl', hr', hv⟩ := of_arithmetic hfamily
    exact ⟨u, common?_of_coerce hcoerce hl' hr' hl hr, hv⟩
  | shift op =>
    obtain ⟨hl', hr', hv⟩ := of_shift hfamily
    obtain ⟨rfl, rfl⟩ := eq_of_coerce hcoerce (by decide) hl' hr' hl hr
    exact ⟨.int, rfl, hv⟩
  | comparison op => exact ⟨.bool, rfl, of_comparison hfamily⟩
  | equality op =>
    cases hfamily
    exact ⟨.bool, rfl, of_equality op l' r'⟩
  | bitwise op =>
    obtain ⟨u, hu, hl', hr', hv⟩ := of_bitwise hfamily
    obtain ⟨rfl, rfl⟩ := eq_of_coerce hcoerce hu hl' hr' hl hr
    exact ⟨_, if_pos rfl, hv⟩
  | logical op => exact ⟨.bool, rfl, of_logical hfamily⟩

/-- A prefix operator that has a result stays in the type of its operand. -/
theorem of_unary {op : UnaryOperator} (h : (unary op v).isFault = false) (hv : v.Fits t) :
    (unary op v).Of t := by
  have hof : ∃ u, v.Of u ∧ (unary op v).Of u := by
    unfold unary at h ⊢
    split at h
    · cases h
    · have hok := ofExcept_proper h
      obtain ⟨w, -, hw⟩ := map_eq_ok.1 hok
      rw [← hw]
      exact ⟨.int, of_int _, of_int _⟩
    · exact ⟨.float, of_float _, of_float _⟩
    · cases h
    · exact ⟨.bool, of_bool _, of_bool _⟩
    · exact ⟨.int, of_int _, of_int _⟩
    · cases h
    · cases h
  obtain ⟨u, hu, hresult⟩ := hof
  exact hu.eq hv ▸ hresult

/-- A conversion yields a value of the type that is asked for. -/
theorem type?_convert? {w : Value} (h : v.convert? t = some w) : w.type? = some t := by
  unfold convert? at h
  split at h
  · obtain ⟨x, -, rfl⟩ := Option.map_eq_some_iff.1 h
    rfl
  · obtain ⟨x, -, rfl⟩ := Option.map_eq_some_iff.1 h
    rfl
  · obtain ⟨c, -, rfl⟩ := Option.map_eq_some_iff.1 h
    rfl
  · cases h
    rfl
  · cases h
    rfl
  · cases h

/-- A cast that has a result yields one of the type that is asked for. -/
theorem of_convert (h : (v.convert t).isFault = false) (ht : t ≠ .void) : (v.convert t).Of t := by
  refine ⟨?_, ht⟩
  unfold convert at h ⊢
  split at h
  · rename_i hkept
    rw [if_pos hkept]
    rcases hkept with hfault | htype
    · rw [hfault] at h
      cases h
    · exact htype
  · rename_i hconverted
    rw [if_neg hconverted]
    exact type?_convert? (orFault_eq_ok.1 (ofExcept_proper h))

end Value

end Scriptling
