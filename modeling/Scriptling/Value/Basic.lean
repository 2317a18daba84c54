import Scriptling.Fault
import Scriptling.Syntax.Operator
import Scriptling.Number.Shortest
import Scriptling.Number.Convert

/-!
# Scriptling.Value.Basic -- the values of a running program

A value is a number, a truth value, text, nothing at all, or a fault on its way to whoever raises it. An
expression that fails does not stop at once: the fault takes the place of the value and passes through
the operators around it, until a statement wants to use it.
-/

set_option autoImplicit false

namespace Scriptling

/-- What an expression yields. -/
inductive Value where
  | int (w : Word)
  | float (x : Float)
  | bool (b : Bool)
  | string (s : String)
  | char (c : Char)
  /-- The value of a variable not yet set and of a call that returns nothing. -/
  | void
  /-- The fault that came about in place of a value. -/
  | fault (f : Fault)
  deriving DecidableEq, Repr

namespace Value

/-- The type of a value. A fault has none. -/
def type? : Value → Option ValueType
  | int _ => some .int
  | float _ => some .float
  | bool _ => some .bool
  | string _ => some .string
  | char _ => some .char
  | void => some .void
  | fault _ => none

/-- The fault in place of a value. -/
def fault? : Value → Option Fault
  | fault f => some f
  | _ => none

/-- Whether a fault took the place of the value. -/
def isFault (v : Value) : Bool := v.fault?.isSome

/-- A value that is no fault, or the fault. -/
def toExcept : Value → Except Fault Value
  | fault f => .error f
  | v => .ok v

/-- The result of an operation, a fault put in the place of its value. -/
def ofExcept : Except Fault Value → Value
  | .ok v => v
  | .error f => fault f

/-- Whether a value is the zero of its type, by which nothing can be divided. Both signs of a float zero
count. -/
def isZero : Value → Bool
  | int w => w.toInt = 0
  | float x => x == 0
  | bool b => !b
  | char c => c = '\x00'
  | string _ | void | fault _ => false

/-- The text of a value when it is printed. Strings and characters stand as they are. -/
def text : Value → String
  | int w => w.text
  | float x => Binary64.text x
  | bool true => "true"
  | bool false => "false"
  | string s => s
  | char c => String.ofList [c]
  | void => "void"
  | fault f => "<error: " ++ f.message ++ ">"

/-- A result or a fault of the given kind. -/
def orFault {α : Type} (f : Fault) : Option α → Except Fault α
  | some a => .ok a
  | none => .error f

/-- Faults are the values made of one. -/
theorem isFault_iff {v : Value} : v.isFault = true ↔ ∃ f, v = fault f := by
  cases v <;> simp [isFault, fault?]

/-- Faults are the only values without a type. -/
theorem type?_eq_none_iff {v : Value} : v.type? = none ↔ v.isFault = true := by
  cases v <;> simp [isFault, fault?, type?]

end Value

end Scriptling
