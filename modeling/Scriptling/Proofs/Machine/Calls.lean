import Scriptling.Machine.Evaluate

/-!
# Scriptling.Proofs.Machine.Calls -- calls that know whose statements they execute

A construct executes the statements in it without saying where they stand. For the bodies of a statement
that is known from the statement; for the body of a function only the call knows it. Here the call passes
the function on, so that statements can be executed according to where they stand.
-/

set_option autoImplicit false

namespace Scriptling.Machine

open Effects

section

variable {M : Type → Type} [Effects M] (eval : Expr → M Value) (exec : Function → Statement → M Flow)

/-- Evaluates a call, where the statements of a function are executed as those of this function. -/
def callWithin (name : String) (args : List Expr) (line : Nat) : M Value := do
  match ← read fun m => m.scopes.function? name with
  | none => pure (.fault .undefinedFunction)
  | some f =>
    if f.params.length = args.length then
      match ← arguments eval f.params args with
      | .error fault => pure (.fault fault)
      | .ok values => body (exec f) f values line
    else pure (.fault .wrongArgumentCount)

/-- Evaluates an expression, where the statements of a function are executed as those of this function. -/
def expressionWithin : Expr → M Value
  | .call f args line => callWithin eval exec f args line
  -- No other expression executes statements by itself.
  | e => expression eval (fun _ => pure .next) e

end

variable {M : Type → Type} [Effects M] (eval : Expr → M Value) (exec : Statement → M Flow)

/-- Where the function makes no difference, it is the same expression. -/
theorem expressionWithin_const (e : Expr) :
    expressionWithin eval (fun _ => exec) e = expression eval exec e := by
  cases e <;> rfl

end Scriptling.Machine
