import Scriptling.Proofs.Trace.Basic

/-!
# Scriptling.Proofs.Trace.Watched -- programs by the values their expressions come to

A fault that takes the place of a value is no event of the machine: the state does not change, and an
operator or a call may pass the fault on or lose it. To speak of all faults that come about in a run, also
of those inside the bodies of functions, the language is carried out once more, with a list of what each
evaluation of an expression has come to.

* `Watched` -- an outcome and the values on the way to it.
* `Watched.evaluate`, `Watched.execute`, `Watched.interpret` -- the language, carried out so. Each
  evaluation that comes to a value is put on the list, after those it has made use of.
* `Watched.forget_evaluate`, `Watched.forget_execute`, `Watched.forget_interpret` -- without the list, it
  is the same computation.
-/

set_option autoImplicit false

namespace Scriptling

/-- An expression and the value that an evaluation of it has come to. -/
structure Yield where
  expr : Expr
  value : Value

/-- A computation carried out for its outcome and for the values that expressions come to on the way. The
values are known however the computation ends. -/
def Watched (α : Type) : Type := Machine → Outcome α × List Yield

namespace Watched

variable {α β : Type}

/-- Goes on with a result, and lists what comes after it. -/
def bind (x : Watched α) (f : α → Watched β) : Watched β := fun m =>
  match x m with
  | (.done a m', ys) => ((f a m').1, ys ++ (f a m').2)
  | (.raised e m', ys) => (.raised e m', ys)
  | (.exhausted, ys) => (.exhausted, ys)

instance : Monad Watched where
  pure a := fun m => (.done a m, [])
  bind := bind

/-- The computation without the list. -/
def forget (x : Watched α) : Run α := fun m => (x m).1

/-- What is carried out as usual, no expression being evaluated by it. -/
def unwatched (x : Run α) : Watched α := fun m => (x m, [])

instance : Effects Watched where
  exhausted := unwatched Effects.exhausted
  read f := unwatched (Effects.read f)
  act a := unwatched (Effects.act a)
  raise f line := unwatched (Effects.raise f line)
  always a x := fun m => (Run.finally_ (fun m => (a.perform m).1) x.forget m, (x m).2)

/-- Puts the value that an expression comes to on the list. -/
def noting (e : Expr) (x : Watched Value) : Watched Value := fun m =>
  match x m with
  | (.done v m', ys) => (.done v m', ys ++ [⟨e, v⟩])
  | (.raised e m', ys) => (.raised e m', ys)
  | (.exhausted, ys) => (.exhausted, ys)

open Effects

mutual

/-- Evaluates an expression in time `n`, with the values on the way. -/
def evaluate : Nat → Expr → Watched Value
  | 0, _ => exhausted
  | n + 1, e => noting e (Machine.expression (evaluate n) (execute n) e)

/-- Executes a statement in time `n`, with the values on the way. -/
def execute : Nat → Statement → Watched Flow
  | 0, _ => exhausted
  | n + 1, s => Machine.statement (evaluate n) (execute n) n s

end

/-- Interprets a program in time `n`, with the values on the way. -/
def interpret (n : Nat) (p : Program) : Watched Unit := Machine.program (execute n) p

/-! ## The same computation -/

theorem forget_bind (x : Watched α) (f : α → Watched β) :
    (x >>= f).forget = x.forget >>= fun a => (f a).forget := by
  funext m
  show ((Watched.bind x f) m).1 = _
  rw [Run.bind_apply]
  unfold Watched.bind forget
  rcases x m with ⟨a | e | _, ys⟩ <;> rfl

/-- A note is no part of the computation. -/
theorem forget_noting (e : Expr) (x : Watched Value) : (noting e x).forget = x.forget := by
  funext m
  unfold noting forget
  rcases hx : x m with ⟨v | e | _, ys⟩ <;> simp [hx]

/-- Carrying out as usual what was carried out with the list. -/
def plain : Interpretation Watched Run where
  map := forget
  map_pure _ := rfl
  map_bind := forget_bind
  map_exhausted := rfl
  map_read _ := rfl
  map_act _ := rfl
  map_raise _ _ := rfl
  map_always _ _ := rfl

/-- An expression, and a statement, ends the same way and on the same machine, with the values on the way
listed or not. -/
theorem forget_evaluate_execute (n : Nat) :
    (∀ e, (evaluate n e).forget = Machine.evaluate n e) ∧
      ∀ s, (execute n s).forget = Machine.execute n s := by
  induction n with
  | zero => exact ⟨fun _ => rfl, fun _ => rfl⟩
  | succ n ih =>
    have he : plain.onExpr (evaluate n) = Machine.evaluate n := funext ih.1
    have hs : plain.onStatement (execute n) = Machine.execute n := funext ih.2
    constructor
    · intro e
      have h := plain.map_expression (evaluate n) (execute n) e
      rw [he, hs] at h
      rw [evaluate, forget_noting]
      exact h
    · intro s
      have h := plain.map_statement (evaluate n) (execute n) n s
      rw [he, hs] at h
      exact h

theorem forget_evaluate (n : Nat) (e : Expr) : (evaluate n e).forget = Machine.evaluate n e :=
  (forget_evaluate_execute n).1 e

theorem forget_execute (n : Nat) (s : Statement) : (execute n s).forget = Machine.execute n s :=
  (forget_evaluate_execute n).2 s

theorem forget_interpret (n : Nat) (p : Program) :
    (interpret n p).forget = Machine.interpret n p := by
  have hs : plain.onStatement (execute n) = Machine.execute n := funext (forget_execute n)
  rw [Machine.interpret, ← hs]
  exact plain.map_program (execute n) p

end Watched

end Scriptling
