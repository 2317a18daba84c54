import Scriptling.Proofs.Number.Conversions
import Scriptling.Proofs.Value.Numbers

/-!
# Scriptling.Proofs.Value.Casts -- casts between numbers

A cast that has a result loses nothing of an integer or a character: the result stands for the same number and is
cast back to what it was made from (`convert_comes_back`). A float loses its fraction and nothing else
(`convert_float_int`): what is left is an integer or there is no result, with neither rounding nor saturation. Only the
sign of a zero is not got back.

Whether an integer becomes a float is decided by its size alone (`convert_int_float`). Up to 53 bits each becomes the
float that denotes it. Beyond, none becomes a float: the test asks for the size, up to which no integer is rounded, and
makes no difference for those that have zeros behind their first 53 bits and are denoted by a float, too
(`Word.representable_iff`).
-/

set_option autoImplicit false

namespace Scriptling.Value

open Binary64 (value?)
open Word (InRange Representable)

/-- The number that a value stands for, if it stands for one: a float may have a fraction. -/
def rational? : Value → Option ℚ
  | float x => value? x
  | v => v.number?.map Int.cast

/-- What a float comes to as an integer: the whole part of the number that it denotes, if that is a word. -/
inductive CutsTo : Float → Value → Prop
  | word {x : Float} {q : ℚ} {a : Word} : value? x = some q → a.toInt = wholePart q → CutsTo x (int a)
  | outOfRange {x : Float} {q : ℚ} : value? x = some q → ¬ InRange (wholePart q) → CutsTo x (fault .notConvertible)
  | notFinite {x : Float} : x.isFinite = false → CutsTo x (fault .notConvertible)

variable {v w : Value} {s t : ValueType} {a : Word} {x : Float}

/-! ## Casts to another type -/

theorem convert_of_type? (h : v.type? = some t) : v.convert t = v := if_pos (.inr h)

theorem convert_of_ne (hproper : v.isFault = false) (hne : v.type? ≠ some t) :
    v.convert t = ofExcept (orFault .notConvertible (v.convert? t)) :=
  if_neg (not_or.2 ⟨Bool.not_eq_true _ ▸ hproper, hne⟩)

theorem convert_of_some (hne : v.type? ≠ some t) (h : v.convert? t = some w) : v.convert t = w := by
  have hproper : v.isFault = false := by
    cases v with
    | fault f => cases h
    | _ => rfl
  rw [convert_of_ne hproper hne, h]
  rfl

/-- A cast to another type that has a result is a conversion. -/
theorem convert?_of_proper (hne : v.type? ≠ some t) (h : (v.convert t).isFault = false) :
    v.convert? t = some (v.convert t) := by
  have hconvert := convert_of_ne (proper_of_convert h) hne
  rw [hconvert] at h
  rw [hconvert, ← orFault_eq_ok]
  exact ofExcept_proper h

/-! ## Integers and characters -/

/-- What is made of an integer or a character stands for the same number, and is made into it again. -/
theorem convert?_comes_back (hs : v.type? = some s) (hs' : s ∈ [.int, .char]) (h : v.convert? t = some w) :
    w.rational? = v.rational? ∧ w.convert? s = some v := by
  cases v with
  | int a =>
    cases hs
    cases t with
    | float =>
      obtain ⟨x, hx, rfl⟩ := Option.map_eq_some_iff.1 h
      have hvalue := Word.value?_of_toFloat? hx
      refine ⟨hvalue, Option.map_eq_some_iff.2 ⟨a, ?_, rfl⟩⟩
      exact Word.ofFloat?_eq_some_iff.2 ⟨_, hvalue, (wholePart_intCast _).symm⟩
    | char =>
      obtain ⟨c, hc, rfl⟩ := Option.map_eq_some_iff.1 h
      have hcode := Word.toChar?_eq_some_iff.1 hc
      have hword : Word.ofChar c = a := Int64.toInt_inj.1 ((Word.toInt_ofChar c).trans hcode)
      refine ⟨congrArg (fun z : Int => some (z : ℚ)) hcode, ?_⟩
      rw [convert?, hword]
    | int | bool | string | void => cases h
  | char c =>
    cases hs
    cases t with
    | int =>
      cases h
      have hcode := Word.toInt_ofChar c
      refine ⟨congrArg (fun z : Int => some (z : ℚ)) hcode, ?_⟩
      rw [convert?, Word.toChar?_eq_some_iff.2 hcode.symm]
      rfl
    | float | char | bool | string | void => cases h
  | float _ | bool _ | string _ | void =>
    cases hs
    simp at hs'
  | fault f => cases hs

theorem convert_comes_back (hs : v.type? = some s) (hs' : s ∈ [.int, .char]) (h : (v.convert t).isFault = false) :
    (v.convert t).rational? = v.rational? ∧ (v.convert t).convert s = v := by
  by_cases hsame : s = t
  · subst hsame
    rw [convert_of_type? hs, convert_of_type? hs]
    exact ⟨rfl, rfl⟩
  · have hne : v.type? ≠ some t := by
      rw [hs]
      exact fun h => hsame (Option.some.inj h)
    have hconvert := convert?_of_proper hne h
    obtain ⟨hnumber, hback⟩ := convert?_comes_back hs hs' hconvert
    refine ⟨hnumber, convert_of_some ?_ hback⟩
    rw [type?_convert? hconvert]
    exact fun h => hsame (Option.some.inj h).symm

/-! ## Floats -/

/-- A float is cast to its whole part. -/
theorem convert_float_int : (float x).convert .int = w ↔ CutsTo x w := by
  have hconvert : (float x).convert .int = ofExcept (orFault .notConvertible ((Word.ofFloat? x).map int)) :=
    convert_of_ne rfl nofun
  rw [hconvert]
  constructor
  · rintro rfl
    cases hcut : Word.ofFloat? x with
    | none =>
      cases hx : value? x with
      | none => exact .notFinite (Binary64.value?_eq_none_iff.1 hx)
      | some q => exact .outOfRange hx (Word.ofFloat?_eq_none_iff.1 hcut q hx)
    | some a =>
      obtain ⟨q, hx, hq⟩ := Word.ofFloat?_eq_some_iff.1 hcut
      exact .word hx hq
  · intro h
    cases h with
    | word hx hq =>
      rw [Word.ofFloat?_eq_some_iff.2 ⟨_, hx, hq⟩]
      rfl
    | outOfRange hx hq =>
      have hnone : Word.ofFloat? x = none := Word.ofFloat?_eq_none_iff.2 fun q' hx' => by
        rwa [← Option.some.inj (hx.symm.trans hx')]
      rw [hnone]
      rfl
    | notFinite hx =>
      have hnone : Word.ofFloat? x = none := Word.ofFloat?_eq_none_iff.2 fun q hq => by
        rw [Binary64.value?_eq_none_iff.2 hx] at hq
        cases hq
      rw [hnone]
      rfl

/-- An integer is cast to the float that denotes it, or to none, and its size alone tells which. -/
theorem convert_int_float (a : Word) :
    (a.toInt.natAbs < 2 ^ 53 ∧ ∃ y, (int a).convert .float = float y ∧ value? y = some (a.toInt : ℚ)) ∨
      2 ^ 53 ≤ a.toInt.natAbs ∧ (int a).convert .float = fault .notConvertible := by
  have hconvert : (int a).convert .float = ofExcept (orFault .notConvertible (a.toFloat?.map float)) :=
    convert_of_ne rfl nofun
  rw [hconvert]
  cases hfloat : a.toFloat? with
  | none => exact .inr ⟨Word.toFloat?_eq_none_iff.1 hfloat, rfl⟩
  | some y =>
    have hlt : a.toInt.natAbs < 2 ^ 53 := by
      rw [← not_le, ← Word.toFloat?_eq_none_iff, hfloat]
      exact nofun
    exact .inl ⟨hlt, y, rfl, Word.value?_of_toFloat? hfloat⟩

/-! ## Main results -/

/-- **Casts are exact and can be undone.** An integer or a character that is cast to any type, and has a result there,
stands for the same number as the result and is got back from it. A float is cast to the integer that is the whole
part of the number it denotes, if that is in the range, and to a fault if it is not or if there is no such number.
Every character has an integer, from which it is got back. And an integer that a float was cast to is cast back to a
float that denotes the whole part, or to a fault. -/
theorem casts_are_exact_and_undone (v : Value) (s t : ValueType) (x : Float) (c : Char) :
    (v.type? = some s → s ∈ [.int, .char] → (v.convert t).isFault = false →
        (v.convert t).rational? = v.rational? ∧ (v.convert t).convert s = v) ∧
      (∀ w, (float x).convert .int = w ↔ CutsTo x w) ∧
      (∃ a : Word, (char c).convert .int = int a ∧ a.toInt = c.toNat ∧ (int a).convert .char = char c) ∧
      ∀ a : Word, (float x).convert .int = int a →
        (int a).convert .float = fault .notConvertible ∨
          ∃ q y, value? x = some q ∧ (int a).convert .float = float y ∧ value? y = some (wholePart q : ℚ) := by
  refine ⟨convert_comes_back, fun w => convert_float_int, ?_, fun a ha => ?_⟩
  · have hback := (convert_comes_back (v := char c) (t := .int) rfl (by decide) rfl).2
    exact ⟨_, rfl, Word.toInt_ofChar c, hback⟩
  · cases convert_float_int.1 ha with
    | word hx hq =>
      rcases convert_int_float a with ⟨-, y, hy, hvalue⟩ | ⟨-, hfault⟩
      · rw [hq] at hvalue
        exact .inr ⟨_, y, hx, hy, hvalue⟩
      · exact .inl hfault

/-- A code point becomes a letter and is got back; minus two and three quarters becomes minus two, of which a float is
made again. -/
theorem letter_and_negative_float_are_cast :
    ((int 97).convert .char).convert .int = int 97 ∧
      CutsTo (Float.ofBits 0xC006000000000000) (int (-2)) ∧
      (∃ a : Word, (char 'a').convert .int = int a ∧ a.toInt = 'a'.toNat ∧ (int a).convert .char = char 'a') ∧
      ∃ q y, value? (Float.ofBits 0xC006000000000000) = some q ∧ (int (-2)).convert .float = float y ∧
        value? y = some (wholePart q : ℚ) := by
  obtain ⟨hback, hcut, hchar, hfloat⟩ :=
    casts_are_exact_and_undone (int 97) .int .char (Float.ofBits 0xC006000000000000) 'a'
  refine ⟨(hback rfl (by decide) (by decide)).2, (hcut _).1 (by decide), hchar, ?_⟩
  exact (hfloat (-2) (by decide)).resolve_left (by decide)

/-- **Integers of at most 53 bits become floats.** They become the float that denotes them, and all others a fault.
An integer is denoted by a float if and only if it has at most 53 bits and any zeros behind them; so that an integer
becomes a float if and only if one denotes it, holds of all integers but those that have more bits and are denoted. -/
theorem integers_of_53_bits_become_floats (a : Word) :
    (a.toInt.natAbs < 2 ^ 53 → ∃ y, (int a).convert .float = float y ∧ value? y = some (a.toInt : ℚ)) ∧
      (2 ^ 53 ≤ a.toInt.natAbs → (int a).convert .float = fault .notConvertible) ∧
      (Representable a.toInt ↔ ∃ y, value? y = some (a.toInt : ℚ)) ∧
      (((∃ y, (int a).convert .float = float y) ↔ Representable a.toInt) ↔
        (Representable a.toInt → a.toInt.natAbs < 2 ^ 53)) := by
  have hrepresentable : a.toInt.natAbs < 2 ^ 53 → Representable a.toInt := Word.representable_of_lt
  rcases convert_int_float a with ⟨hlt, y, hy, hvalue⟩ | ⟨hle, hfault⟩
  · refine ⟨fun _ => ⟨y, hy, hvalue⟩, fun hle => absurd hlt (not_lt.2 hle), Word.representable_iff a, ?_⟩
    exact iff_of_true (iff_of_true ⟨y, hy⟩ (hrepresentable hlt)) fun _ => hlt
  · refine ⟨fun hlt => absurd hlt (not_lt.2 hle), fun _ => hfault, Word.representable_iff a, ?_⟩
    have hnone : ¬ ∃ y, (int a).convert .float = float y := by
      rw [hfault]
      exact nofun
    rw [iff_false_left hnone]
    exact ⟨fun hnot hrep => absurd hrep hnot, fun himp hrep => absurd (himp hrep) (not_lt.2 hle)⟩

/-- The greatest integer of 53 bits becomes the float that denotes it. The next but one, which no float denotes,
becomes a fault. -/
theorem greatest_integer_of_53_bits_becomes_float :
    (∃ y, (int 9007199254740991).convert .float = float y ∧
        value? y = some ((9007199254740991 : Word).toInt : ℚ)) ∧
      (int 9007199254740993).convert .float = fault .notConvertible := by
  have hsmall := (integers_of_53_bits_become_floats 9007199254740991).1 (by decide)
  have hlarge := (integers_of_53_bits_become_floats 9007199254740993).2.1 (by decide)
  exact ⟨hsmall, hlarge⟩

/-- The next integer is the first of 54 bits. It is a power of two and denoted by a float, but becomes none. -/
theorem first_integer_at_the_limit_is_refused :
    Representable (9007199254740992 : Word).toInt ∧ (int 9007199254740992).convert .float = fault .notConvertible ∧
      ¬ ∀ a : Word, (∃ y, (int a).convert .float = float y) ↔ Representable a.toInt := by
  have hrepresentable : Representable (9007199254740992 : Word).toInt := ⟨1, 53, by decide, by decide⟩
  have hfault : (int 9007199254740992).convert .float = fault .notConvertible := by decide
  refine ⟨hrepresentable, hfault, fun h => ?_⟩
  obtain ⟨y, hy⟩ := (h 9007199254740992).2 hrepresentable
  rw [hfault] at hy
  cases hy

end Scriptling.Value
