/-!
# Scriptling.Fault -- what can go wrong while a program runs

A fault is a cause. It says nothing of where it arose: an operator that fails does not know its line,
so the place is added by whoever raises the fault. The wording is fixed in `message` alone.
-/

set_option autoImplicit false

namespace Scriptling

/-- The ways in which a running program can fail. -/
inductive Fault where
  /-- An operator met operands of a type it has no meaning for. -/
  | unsupportedType
  /-- Two operands had different types. -/
  | typeMismatch
  /-- The divisor was the zero of its type. -/
  | divisionByZero
  /-- A minus sign stood before something that is not a number. -/
  | notNegatable
  | undefinedVariable
  | undefinedFunction
  /-- A bare `return` in a function that promises a value. -/
  | missingReturnValue
  /-- A `return` with a value in a function that promises none. -/
  | unexpectedReturnValue
  | wrongArgumentCount
  /-- A value was bound or assigned that is not of the declared type. -/
  | wrongType
  /-- A returned value was not of the declared result type. -/
  | wrongReturnType
  /-- A cast or a coercion found no value of the target type. -/
  | notConvertible
  /-- An exact result does not fit in an integer. -/
  | overflow
  | constantAssignment
  | constantWithoutValue
  /-- A function of this name is visible already. -/
  | functionRedeclared
  | returnOutsideFunction
  /-- A `break` without a loop, or a `remit` without a conditional, to leave. -/
  | misplacedExit
  /-- The output took no more text. -/
  | outputFailed
  deriving DecidableEq, Repr

/-- The wording of a fault. -/
def Fault.message : Fault → String
  | .unsupportedType => "operator is not supported for this type"
  | .typeMismatch => "operand types do not match"
  | .divisionByZero => "division by zero"
  | .notNegatable => "cannot negate a non-numeric value"
  | .undefinedVariable => "undefined variable"
  | .undefinedFunction => "undefined function"
  | .missingReturnValue => "missing return value in non-void function"
  | .unexpectedReturnValue => "void function cannot return a value"
  | .wrongArgumentCount => "wrong number of arguments"
  | .wrongType => "value does not match the declared type"
  | .wrongReturnType => "returned value does not match the function's return type"
  | .notConvertible => "value cannot be converted to the requested type"
  | .overflow => "integer overflow"
  | .constantAssignment => "cannot assign to a constant"
  | .constantWithoutValue => "constant declared without an initializer"
  | .functionRedeclared => "function is already defined"
  | .returnOutsideFunction => "return outside of a function"
  | .misplacedExit => "'break' outside of a loop or 'remit' outside of a conditional"
  | .outputFailed => "failed to write program output"

end Scriptling
