import Scriptling.Fault
import Scriptling.Scope.Chain
import Scriptling.Machine.Output

/-!
# Scriptling.Machine.Run -- computations on a running program's state

A computation changes the state and ends in one of three ways: with a result, with a raised fault, or
with neither because its time ran out. The state is known in the first two cases alike, so what a failed
computation did stays done.

The language is written against `Effects`, which says what a computation can do and nothing of how it is
carried out. All changes of the state are `Action`s, so a computation can be carried out for its result or
for the list of its actions, and it is the same computation both times.

* `Machine` -- the state.
* `Action` -- a change of the state.
* `Effects` -- what computations can do; `inScope`, `inCall`: inside a scope and inside a call, both closed
  however they end.
* `Run` -- computations carried out for their result.
-/

set_option autoImplicit false

namespace Scriptling

/-- A fault and the place where it was raised. -/
structure RuntimeError where
  file : String
  line : Nat
  fault : Fault
  deriving DecidableEq, Repr

/-- The wording of an error with its place. -/
def RuntimeError.message (e : RuntimeError) : String :=
  e.file ++ ":" ++ String.ofList (Digits.write e.line) ++ ": " ++ e.fault.message

/-- The state of a running program: the file that messages name, the scopes in force, the result types of
the calls under way from the innermost out, and what was printed. -/
structure Machine where
  file : String
  scopes : Scopes
  results : List ValueType
  output : Output

namespace Machine

/-- A machine before its first program. -/
def initial (output : Output) : Machine := ⟨"", .initial, [], output⟩

end Machine

/-! ## Actions -/

/-- A change of the state. -/
inductive Action where
  /-- Takes up a program; messages name its file from now on. -/
  | load (file : String)
  /-- Opens a scope. -/
  | enter (kind : ScopeKind)
  /-- Closes the current scope. -/
  | leave
  /-- Begins a call that promises a result of the type. -/
  | start (result : ValueType)
  /-- Ends the innermost call. -/
  | stop
  /-- Defines a variable in the current scope. -/
  | define (name : String) (b : Binding)
  /-- Defines a parameter in the current scope. -/
  | pass (p : Param) (v : Value)
  /-- Defines a function in the current scope. -/
  | defineFunction (f : Function)
  /-- Gives a new value to the variable a name stands for. -/
  | update (name : String) (v : Value)
  /-- Prints a text. -/
  | write (text : String)

/-- The machine after an action, and whether the action could be carried out in full. -/
@[inline] def Action.perform (a : Action) (m : Machine) : Machine × Bool :=
  match a with
  | load file => ({ m with file := file }, true)
  | enter kind => ({ m with scopes := m.scopes.enter kind }, true)
  | leave => ({ m with scopes := m.scopes.leave }, true)
  | start result => ({ m with results := result :: m.results }, true)
  | stop => ({ m with results := m.results.tail }, true)
  | define name b => ({ m with scopes := m.scopes.define name b }, true)
  | pass p v => ({ m with scopes := m.scopes.define p.name ⟨v, p.type, !p.constant⟩ }, true)
  | defineFunction f => ({ m with scopes := m.scopes.defineFunction f }, true)
  | update name v =>
    match m.scopes.update? name v with
    | some scopes => ({ m with scopes := scopes }, true)
    | none => (m, false)
  | write text =>
    let (output, complete) := m.output.write text
    ({ m with output := output }, complete)

/-! ## What computations can do -/

/-- What a computation of the language can do. -/
class Effects (M : Type → Type) extends Monad M where
  /-- Gives up for lack of time. -/
  exhausted {α : Type} : M α
  /-- Looks at the state. -/
  read {α : Type} (f : Machine → α) : M α
  /-- Carries out an action and tells whether it could be carried out in full. -/
  act (a : Action) : M Bool
  /-- Raises a fault at a line of the current file. -/
  raise {α : Type} (f : Fault) (line : Nat) : M α
  /-- A computation and, however it ends, an action after it. -/
  always {α : Type} (a : Action) (x : M α) : M α

namespace Effects

variable {M : Type → Type} [Effects M] {α : Type}

/-- Computes inside a new scope. -/
@[inline] def inScope (kind : ScopeKind) (x : M α) : M α := do
  let _ ← act (.enter kind)
  always .leave x

/-- Computes as part of a call that promises a result of the given type. -/
@[inline] def inCall (result : ValueType) (x : M α) : M α := do
  let _ ← act (.start result)
  always .stop x

end Effects

/-! ## Computations carried out -/

/-- How a computation ends. -/
inductive Outcome (α : Type) where
  | done (a : α) (m : Machine)
  | raised (e : RuntimeError) (m : Machine)
  | exhausted

/-- A computation. -/
def Run (α : Type) : Type := Machine → Outcome α

namespace Run

variable {α β : Type}

/-- Goes on with a result. -/
@[inline] def bind (x : Run α) (f : α → Run β) : Run β := fun m =>
  match x m with
  | .done a m' => f a m'
  | .raised e m' => .raised e m'
  | .exhausted => .exhausted

instance : Monad Run where
  pure a := fun m => .done a m
  bind := bind

/-- Only a result is gone on with; a raised fault keeps the state it was raised in. -/
theorem bind_apply (x : Run α) (f : α → Run β) (m : Machine) :
    (x >>= f) m = match x m with
      | .done a m' => f a m'
      | .raised e m' => .raised e m'
      | .exhausted => .exhausted := rfl

/-- What ends with a result has gone through a result. -/
theorem bind_eq_done {x : Run α} {f : α → Run β} {b : β} {m m' : Machine} :
    (x >>= f) m = .done b m' ↔ ∃ a m₁, x m = .done a m₁ ∧ f a m₁ = .done b m' := by
  rw [bind_apply]
  constructor
  · intro h
    cases hx : x m with
    | done a m₁ =>
      rw [hx] at h
      exact ⟨a, m₁, rfl, h⟩
    | raised e m₁ =>
      rw [hx] at h
      cases h
    | exhausted =>
      rw [hx] at h
      cases h
  · rintro ⟨a, m₁, hx, h⟩
    rw [hx]
    exact h

instance : LawfulMonad Run := LawfulMonad.mk' _
  (fun x => funext fun m => by
    simp only [Functor.map, bind]
    cases x m <;> rfl)
  (fun _ _ => rfl)
  (fun x f g => funext fun m => by
    simp only [Bind.bind, bind]
    cases x m <;> rfl)

/-- A computation whose final state, if it has one, is put in order at the end. -/
@[inline] def finally_ (restore : Machine → Machine) (x : Run α) : Run α := fun m =>
  match x m with
  | .done a m' => .done a (restore m')
  | .raised e m' => .raised e (restore m')
  | .exhausted => .exhausted

@[inline] instance : Effects Run where
  exhausted := fun _ => .exhausted
  read f := fun m => .done (f m) m
  act a := fun m =>
    let (m', complete) := a.perform m
    .done complete m'
  raise f line := fun m => .raised ⟨m.file, line, f⟩ m
  always a x := finally_ (fun m => (a.perform m).1) x

/-- Looking at the state leaves it alone. -/
theorem read_apply (f : Machine → α) (m : Machine) : (Effects.read f : Run α) m = .done (f m) m := rfl

end Run

end Scriptling
