import Scriptling.Proofs.Trace.Noted

/-!
# Scriptling.Proofs.Trace.Faulted -- computations that note their faults

A fault comes about in place of the value of an expression, or by being raised. Both are noted here, in the order
in which they come about: first an expression whose value is a fault, then those that pass it on, and at last the
statement that raises it. A fault in place of the value of a left operand waits until the right operand has been
evaluated as well. What comes about meanwhile is noted with the faults that wait.

* `Occurrence` -- a fault that comes about, and the faults that wait then.
* `Faulted` -- computations that note them; `Faulted.interpret`: whole programs.
* `Faulted.forget_interpret` -- without the notes, it is the same computation.
-/

set_option autoImplicit false

namespace Scriptling

open Effects

/-! ## Operands -/

section Operands

variable {M : Type → Type} [Effects M] (wait : Value → M Value → M Value) (eval : Expr → M Value)
  (exec : Statement → M Flow)

/-- Evaluates an expression, where the right operand of an operator is evaluated while the left one waits. -/
def Machine.expressionWaiting : Expr → M Value
  | .binary op l r _ => do
    let a ← eval l
    let b ← wait a (eval r)
    pure (Value.binary op a b)
  | e => Machine.expression eval exec e

end Operands

/-! ## Computations that note faults -/

/-- A fault that comes about, and the faults of left operands that wait then, the one of the outermost operator
first. -/
structure Occurrence where
  fault : Fault
  waiting : List Fault

/-- A computation that is carried out while faults wait and notes those that come about. -/
def Faulted (α : Type) : Type := List Fault → Noted Occurrence α

namespace Faulted

variable {α β : Type}

instance : Monad Faulted where
  pure a := fun _ => pure a
  bind x f := fun waiting => x waiting >>= fun a => f a waiting

/-- Notes a fault. -/
def note (f : Fault) : Faulted Unit := fun waiting m => (.done () m, [⟨f, waiting⟩])

instance : Effects Faulted where
  exhausted := fun _ => exhausted
  read f := fun _ => read f
  act a := fun _ => act a
  raise f line := fun waiting m => ((raise f line : Run _) m, [⟨f, waiting⟩])
  always a x := fun waiting => always a (x waiting)

/-- Notes the fault that an expression comes to, if it comes to one. -/
def noting (x : Faulted Value) : Faulted Value := do
  let v ← x
  match v with
  | .fault f => do
    note f
    pure (.fault f)
  | v => pure v

/-- Carries out a computation while one more value waits, which may be a fault. -/
def awaiting (v : Value) (x : Faulted α) : Faulted α := fun waiting => x (waiting ++ v.fault?.toList)

mutual

/-- Evaluates an expression in time `n`, noting faults. -/
def evaluate : Nat → Expr → Faulted Value
  | 0, _ => exhausted
  | n + 1, e => noting (Machine.expressionWaiting awaiting (evaluate n) (execute n) e)

/-- Executes a statement in time `n`, noting faults. -/
def execute : Nat → Statement → Faulted Flow
  | 0, _ => exhausted
  | n + 1, s => Machine.statement (evaluate n) (execute n) n s

end

/-- Interprets a program in time `n`, noting faults. -/
def interpret (n : Nat) (p : Program) : Faulted Unit := Machine.program (execute n) p

/-! ## The same computation -/

/-- Carrying out while given faults wait, and without notes. -/
def plain (waiting : List Fault) : Interpretation Faulted Run where
  map x := (x waiting).forget
  map_pure _ := rfl
  map_bind x f := Noted.forget_bind (x waiting) fun a => f a waiting
  map_exhausted := rfl
  map_read _ := rfl
  map_act _ := rfl
  map_raise _ _ := rfl
  map_always _ _ := rfl

theorem forget_noting (x : Faulted Value) (waiting : List Fault) :
    (noting x waiting).forget = (x waiting).forget := by
  funext m
  show (Noted.bind (x waiting) _ m).1 = (x waiting m).1
  unfold Noted.bind
  rcases x waiting m with ⟨v | e | _, os⟩
  · cases v <;> rfl
  · rfl
  · rfl

/-- An expression ends the same way, whatever faults wait, if its parts do. -/
theorem forget_expressionWaiting {eval : Expr → Faulted Value} {exec : Statement → Faulted Flow}
    {eval' : Expr → Run Value} {exec' : Statement → Run Flow}
    (heval : ∀ waiting e, (eval e waiting).forget = eval' e)
    (hexec : ∀ waiting s, (exec s waiting).forget = exec' s) (waiting : List Fault) (e : Expr) :
    (Machine.expressionWaiting awaiting eval exec e waiting).forget = Machine.expression eval' exec' e := by
  have he : (plain waiting).onExpr eval = eval' := funext (heval waiting)
  have hs : (plain waiting).onStatement exec = exec' := funext (hexec waiting)
  have hexpression := (plain waiting).map_expression eval exec e
  rw [he, hs] at hexpression
  cases e with
  | binary op l r line =>
    -- What waits has no part in how the right operand ends.
    have hright (a : Value) : (awaiting a (eval r) waiting).forget = eval' r := heval _ r
    show (plain waiting).map (eval l >>= fun a => awaiting a (eval r) >>= fun b =>
      pure (Value.binary op a b)) = _
    simp only [Interpretation.map_bind, Interpretation.map_pure]
    show (eval l waiting).forget >>= (fun a => (awaiting a (eval r) waiting).forget >>= _) = _
    simp only [heval, hright]
    rfl
  | _ => exact hexpression

theorem forget_evaluate_execute (n : Nat) :
    (∀ waiting e, (evaluate n e waiting).forget = Machine.evaluate n e) ∧
      ∀ waiting s, (execute n s waiting).forget = Machine.execute n s := by
  induction n with
  | zero => exact ⟨fun _ _ => rfl, fun _ _ => rfl⟩
  | succ n ih =>
    constructor
    · intro waiting e
      rw [evaluate, forget_noting]
      exact forget_expressionWaiting ih.1 ih.2 waiting e
    · intro waiting s
      have he : (plain waiting).onExpr (evaluate n) = Machine.evaluate n := funext (ih.1 waiting)
      have hs : (plain waiting).onStatement (execute n) = Machine.execute n := funext (ih.2 waiting)
      have h := (plain waiting).map_statement (evaluate n) (execute n) n s
      rw [he, hs] at h
      exact h

/-- It is the same computation, with its faults noted or not. -/
theorem forget_interpret (n : Nat) (p : Program) :
    (interpret n p []).forget = Machine.interpret n p := by
  have hs : (plain []).onStatement (execute n) = Machine.execute n :=
    funext ((forget_evaluate_execute n).2 [])
  rw [Machine.interpret, ← hs]
  exact (plain []).map_program (execute n) p

end Faulted

end Scriptling
