import Scriptling.Proofs.Value.Types

/-!
# Scriptling.Proofs.Value.Faults -- which faults operators come to

An operator hands on the fault of an operand or comes to one of its own, and there are few of those
(`Fault.ofOperators`). So what is known of the faults in place of the operands, and holds of these few, is
known of the result: `faultIs_binary`, `faultIs_unary` and `faultIs_convert`.
-/

set_option autoImplicit false

namespace Scriptling

/-- The faults of operators and casts. -/
def Fault.ofOperators : List Fault :=
  [.unsupportedType, .typeMismatch, .divisionByZero, .notNegatable, .notConvertible, .overflow]

namespace Value

variable {F : Fault → Prop} {v : Value}

/-- A fault in place of the value satisfies `F`. -/
def FaultIs (F : Fault → Prop) (v : Value) : Prop := ∀ f, v = fault f → F f

theorem faultIs_fault {f : Fault} (hf : F f) : (fault f).FaultIs F := by
  intro g hg
  cases hg
  exact hf

theorem faultIs_of_proper (hv : v.isFault = false) : v.FaultIs F := by
  rintro f rfl
  cases hv

/-- What is of a type is no fault. -/
theorem proper_of_type {t : ValueType} (hv : v.type? = some t) : v.isFault = false :=
  Fits.proper (.inl hv)

/-! ## Results and errors -/

/-- The error of an operation satisfies `F`. -/
def ErrorIs (F : Fault → Prop) {α : Type} (x : Except Fault α) : Prop := ∀ f, x = .error f → F f

section Errors

variable {α β : Type} {x : Except Fault α}

theorem errorIs_ok (a : α) : ErrorIs F (.ok a : Except Fault α) := by
  intro f h
  cases h

theorem errorIs_error {f : Fault} (hf : F f) : ErrorIs F (.error f : Except Fault α) := by
  intro g h
  cases h
  exact hf

theorem errorIs_orFault {f : Fault} (hf : F f) (o : Option α) : ErrorIs F (orFault f o) := by
  cases o with
  | none => exact errorIs_error hf
  | some a => exact errorIs_ok a

/-- The error of a step that depends on another is that of one of the two. -/
theorem ErrorIs.bind {g : α → Except Fault β} (hx : ErrorIs F x) (hg : ∀ a, ErrorIs F (g a)) :
    ErrorIs F (x >>= g) := by
  cases x with
  | error f => exact errorIs_error (hx f rfl)
  | ok a => exact hg a

theorem ErrorIs.map (hx : ErrorIs F x) (g : α → β) : ErrorIs F (g <$> x) := by
  cases x with
  | error f => exact errorIs_error (hx f rfl)
  | ok a => exact errorIs_ok (g a)

/-- A fault that takes the place of a value is the error, if results are no faults. -/
theorem ErrorIs.faultIs {x : Except Fault Value} (hx : ErrorIs F x)
    (hv : ∀ v, x = .ok v → v.isFault = false) : (ofExcept x).FaultIs F := by
  cases x with
  | error f => exact faultIs_fault (hx f rfl)
  | ok v => exact faultIs_of_proper (hv v rfl)

end Errors

/-! ## Operators -/

/-- The results of operators are no faults. -/
theorem proper_of_applyBinary {op : BinaryOperator} {l r : Value} (h : applyBinary op l r = .ok v) :
    v.isFault = false := by
  obtain ⟨⟨l', r'⟩, -, hfamily⟩ := bind_eq_ok.1 h
  dsimp only at hfamily
  split at hfamily
  · cases hfamily
  · cases op with
    | arithmetic op =>
      obtain ⟨_, -, -, hv⟩ := of_arithmetic hfamily
      exact hv.fits.proper
    | shift op => exact (of_shift hfamily).2.2.fits.proper
    | comparison op => exact (of_comparison hfamily).fits.proper
    | equality op =>
      cases hfamily
      exact (of_equality op l' r').fits.proper
    | bitwise op =>
      obtain ⟨_, -, -, -, hv⟩ := of_bitwise hfamily
      exact hv.fits.proper
    | logical op => exact (of_logical hfamily).fits.proper

section Operators

variable (hF : ∀ f ∈ Fault.ofOperators, F f)

include hF

/-- Making characters of integers can fail for want of a character. -/
theorem errorIs_coerce (l r : Value) : ErrorIs F (coerce l r) := by
  have hconvert (w : Word) : ErrorIs F (orFault .notConvertible (Word.toChar? w)) :=
    errorIs_orFault (hF _ (by decide)) _
  unfold coerce
  split
  · exact (hconvert _).bind fun _ => errorIs_ok _
  · exact (hconvert _).bind fun _ => errorIs_ok _
  · split
    · exact errorIs_ok _
    · exact errorIs_error (hF _ (by decide))

theorem errorIs_wordArithmetic (op : Arithmetic) (a b : Word) : ErrorIs F (wordArithmetic op a b) := by
  have hfits (z : Int) : ErrorIs F (orFault .overflow (Word.ofInt? z)) :=
    errorIs_orFault (hF _ (by decide)) _
  unfold wordArithmetic
  split
  · exact (hfits _).bind fun _ => hfits _
  · exact hfits _

theorem errorIs_arithmetic (op : Arithmetic) (l r : Value) : ErrorIs F (arithmetic op l r) := by
  have hunsupported : F .unsupportedType := hF _ (by decide)
  unfold arithmetic
  split
  · exact (errorIs_wordArithmetic hF op _ _).map _
  · exact errorIs_ok _
  · exact (errorIs_wordArithmetic hF op _ _).bind fun _ =>
      (errorIs_orFault (hF _ (by decide)) _).map _
  · split
    · exact errorIs_ok _
    · exact errorIs_error hunsupported
  · exact errorIs_error hunsupported

theorem errorIs_comparison (op : Comparison) (l r : Value) : ErrorIs F (comparison op l r) := by
  have horder : ErrorIs F (order l r) := by
    unfold order
    split
    case h_5 => exact errorIs_error (hF _ (by decide))
    all_goals exact errorIs_ok _
  exact horder.bind fun _ => errorIs_ok _

theorem errorIs_logical (op : Logical) (l r : Value) : ErrorIs F (logical op l r) := by
  have htruth (v : Value) : ErrorIs F (truth v) := by
    cases v with
    | string _ | void | fault _ => exact errorIs_error (hF _ (by decide))
    | _ => exact errorIs_ok _
  exact (htruth l).bind fun _ => (htruth r).bind fun _ => errorIs_ok _

theorem errorIs_bitwise (op : Bitwise) (l r : Value) : ErrorIs F (bitwise op l r) := by
  unfold bitwise
  split
  · exact errorIs_ok _
  · exact errorIs_ok _
  · exact errorIs_error (hF _ (by decide))

theorem errorIs_shift (op : Shift) (l r : Value) : ErrorIs F (shift op l r) := by
  unfold shift
  split
  · exact (errorIs_orFault (hF _ (by decide)) _).bind fun _ => errorIs_ok _
  · exact errorIs_error (hF _ (by decide))

/-- What goes wrong with two operands is one of the faults of operators. -/
theorem errorIs_applyBinary (op : BinaryOperator) (l r : Value) : ErrorIs F (applyBinary op l r) := by
  refine (errorIs_coerce hF l r).bind fun lr => ?_
  dsimp only
  split
  · exact errorIs_error (hF _ (by decide))
  · cases op with
    | arithmetic op => exact errorIs_arithmetic hF op _ _
    | shift op => exact errorIs_shift hF op _ _
    | comparison op => exact errorIs_comparison hF op _ _
    | equality op => exact errorIs_ok _
    | bitwise op => exact errorIs_bitwise hF op _ _
    | logical op => exact errorIs_logical hF op _ _

/-- What a cast comes to. -/
theorem faultIs_convert (hv : v.FaultIs F) (t : ValueType) : (v.convert t).FaultIs F := by
  unfold convert
  split
  · exact hv
  · refine (errorIs_orFault (hF _ (by decide)) _).faultIs fun w hw => ?_
    exact proper_of_type (type?_convert? (orFault_eq_ok.1 hw))

theorem faultIs_unary (hv : v.FaultIs F) (op : UnaryOperator) : (unary op v).FaultIs F := by
  unfold unary
  split
  · exact hv
  · refine ((errorIs_orFault (hF _ (by decide)) _).map _).faultIs fun w hw => ?_
    obtain ⟨_, -, rfl⟩ := map_eq_ok.1 hw
    rfl
  · exact faultIs_of_proper rfl
  · exact faultIs_fault (hF _ (by decide))
  · exact faultIs_of_proper rfl
  · exact faultIs_of_proper rfl
  · exact faultIs_fault (hF _ (by decide))
  · exact faultIs_fault (hF _ (by decide))

/-- Of two operands the left fault is passed on, then the right one; if there is none, it is one of the operator. -/
theorem faultIs_binary {l r : Value} (hl : l.FaultIs F) (hr : r.FaultIs F) (op : BinaryOperator) :
    (binary op l r).FaultIs F := by
  cases l with
  | fault f => exact faultIs_fault (hl f rfl)
  | _ =>
    cases r with
    | fault f => exact faultIs_fault (hr f rfl)
    | _ =>
      rw [binary_of_proper rfl rfl]
      exact (errorIs_applyBinary hF op _ _).faultIs fun _ h => proper_of_applyBinary h

end Operators

end Value

end Scriptling
