import Scriptling.Proofs.Machine.Keeps
import Scriptling.Proofs.Trace.Logic

/-!
# Scriptling.Proofs.Machine.Quiet -- allowed actions, and computations that take no others

Which actions a construct may take (`Action.Allowed`), and the two kinds of computations that constructs are
made of: `Quiet` ones keep all variables, `Local` ones those around the current scope. A local computation
in a scope of its own is quiet.

An update is allowed only if the variable is mutable and of the type of the new value at the moment of the
update. That an assignment checks this long before, ahead of code that may call functions, is enough
because that code is quiet: so the actions and the end of a computation are dealt with together.

All is stated over a predicate `T` on types that all declared types satisfy. With the trivial predicate it
holds of all trees, with "not void" of those that can be written.
-/

set_option autoImplicit false

namespace Scriptling

/-! ## Which actions are allowed -/

/-- The actions that a construct may take on a machine. A scope or a call is closed only if there is one to
close. A variable is defined without a value or with one of its type, a parameter with one of its type. A
value is given only to a mutable variable of its type. A function is defined only if none of its name is
visible. -/
def Action.Allowed (T : ValueType → Prop) (m : Machine) : Action → Prop
  | .leave => m.scopes.outer ≠ []
  | .stop => m.results ≠ []
  | .define _ b => T b.type ∧ (b.value = .void ∨ b.value.type? = some b.type)
  | .pass p v => T p.type ∧ v.type? = some p.type
  | .defineFunction f =>
    (∀ t ∈ f.declaredTypes, T t) ∧ m.scopes.isFunctionDefined f.name = false
  | .update x v =>
    ∃ b, m.scopes.binding? x = some b ∧ b.mutable = true ∧ v.type? = some b.type
  | .load _ | .enter _ | .start _ | .write _ => True

namespace Traced

open Effects Machine

/-! ## Computations that keep all variables -/

/-- Begun on `m`, the computation takes allowed actions and keeps all variables; what `R` says of the calls
under way and the result holds of its result. -/
def Quiet {α : Type} (T : ValueType → Prop) (R : List ValueType → α → Prop) (x : Traced α)
    (m : Machine) : Prop :=
  m.FunctionsOf T →
    x.Meets (Action.Allowed T) (fun a m' => m.Keeps m' ∧ R m.results a) (fun _ m' => m.Keeps m') m

/-- Begun on `m`, the computation takes allowed actions and keeps all variables around the current scope;
what `R` says holds of its result. -/
def Local {α : Type} (T : ValueType → Prop) (R : List ValueType → α → Prop) (x : Traced α)
    (m : Machine) : Prop :=
  m.FunctionsOf T →
    x.Meets (Action.Allowed T)
      (fun a m' => m.KeepsOuter m' ∧ m'.FunctionsOf T ∧ R m.results a)
      (fun _ m' => m.KeepsOuter m') m

/-- Nothing is said of a result. -/
abbrev Any {α : Type} : List ValueType → α → Prop := fun _ _ => True

section Laws

variable {α β : Type} {T : ValueType → Prop} {R : List ValueType → α → Prop}
  {S : List ValueType → β → Prop} {m : Machine}

theorem quiet_pure {a : α} (h : R m.results a) : Quiet T R (pure a) m := fun _ =>
  meets_pure.2 ⟨.refl _ _, h⟩

theorem quiet_raise (f : Fault) (line : Nat) : Quiet T R (raise f line : Traced α) m := fun _ =>
  meets_raise.2 (.refl _ _)

theorem quiet_exhausted : Quiet T R (exhausted : Traced α) m := fun _ =>
  meets_exhausted.2 trivial

theorem quiet_read {f : Machine → α} (h : R m.results (f m)) : Quiet T R (read f) m := fun _ =>
  meets_read.2 ⟨.refl _ _, h⟩

theorem quiet_write (text : String) : Quiet T Any (act (.write text)) m := fun _ =>
  meets_act.2 ⟨trivial, ⟨.refl _ _, rfl, rfl⟩, trivial⟩

/-- What goes on with a result is asked for on the machines that the first computation can leave. -/
theorem Quiet.bind {x : Traced β} {f : β → Traced α} (hx : Quiet T S x m)
    (hf : ∀ b m', m.Keeps m' → S m.results b → Quiet T R (f b) m') : Quiet T R (x >>= f) m := by
  intro hm
  rw [meets_bind]
  refine (hx hm).mono ?_ fun _ _ h => h
  rintro b m' ⟨hkeeps, hS⟩
  refine (hf b m' hkeeps hS (hm.of_keepsBut hkeeps)).mono ?_ fun _ _ h => hkeeps.trans h
  rintro a m'' ⟨hkeeps', hR⟩
  exact ⟨hkeeps.trans hkeeps', hkeeps.results ▸ hR⟩

theorem Quiet.local {x : Traced α} (hx : Quiet T R x m) : Local T R x m := fun hm =>
  (hx hm).mono (fun _ _ h => ⟨h.1.keepsOuter, hm.of_keepsBut h.1, h.2⟩) fun _ _ h => h.keepsOuter

theorem Local.bind {x : Traced β} {f : β → Traced α} (hx : Local T S x m)
    (hf : ∀ b m', m'.results = m.results → S m.results b → Local T R (f b) m') :
    Local T R (x >>= f) m := by
  intro hm
  rw [meets_bind]
  refine (hx hm).mono ?_ fun _ _ h => h
  rintro b m' ⟨hkeeps, hm', hS⟩
  refine (hf b m' hkeeps.results hS hm').mono ?_ fun _ _ h => hkeeps.trans h
  rintro a m'' ⟨hkeeps', hm'', hR⟩
  exact ⟨hkeeps.trans hkeeps', hm'', hkeeps.results ▸ hR⟩

/-- A computation that runs in a scope of its own keeps all variables. -/
theorem Local.inScope {kind : ScopeKind} {x : Traced α}
    (hx : Local T R x { m with scopes := m.scopes.enter kind }) :
    Quiet T R (inScope kind x) m := by
  intro hm
  rw [Effects.inScope, meets_bind, meets_act]
  refine ⟨trivial, meets_always.2 ((hx (hm.enter kind)).mono ?_ ?_)⟩
  · rintro a m' ⟨hkeeps, _, hR⟩
    exact ⟨hkeeps.scopes.outer_ne_nil, ⟨hkeeps.scopes.leave, hkeeps.results, hkeeps.file⟩, hR⟩
  · intro e m' hkeeps
    exact ⟨hkeeps.scopes.outer_ne_nil, hkeeps.scopes.leave, hkeeps.results, hkeeps.file⟩

/-- A computation that is part of a call keeps what it keeps outside of one. -/
theorem Quiet.inCall {result : ValueType} {P : List ValueType → α → Prop} {x : Traced α}
    (hx : Quiet T P x { m with results := result :: m.results })
    (h : ∀ a, P (result :: m.results) a → R m.results a) : Quiet T R (inCall result x) m := by
  intro hm
  have hstop {m' : Machine} (hkeeps : Keeps { m with results := result :: m.results } m') :
      m'.results ≠ [] ∧ m.Keeps (Action.stop.after m') := by
    have hresults : m'.results = result :: m.results := hkeeps.results
    refine ⟨hresults ▸ List.cons_ne_nil _ _, hkeeps.scopes, ?_, hkeeps.file⟩
    show m'.results.tail = m.results
    rw [hresults]
    rfl
  rw [Effects.inCall, meets_bind, meets_act]
  refine ⟨trivial, meets_always.2 ((hx hm).mono ?_ fun e m' hkeeps => hstop hkeeps)⟩
  rintro a m' ⟨hkeeps, hR⟩
  exact ⟨(hstop hkeeps).1, (hstop hkeeps).2, h a hR⟩

end Laws

end Traced

end Scriptling
