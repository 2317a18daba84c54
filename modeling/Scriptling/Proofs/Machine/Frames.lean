import Scriptling.Proofs.Machine.Constructs

/-!
# Scriptling.Proofs.Machine.Frames -- the scopes after running code

Running code leaves the chain of scopes as it found it, however it ends: no scope stays open, none too many
is closed, and the only thing that changes in a scope that was there before is the value of mutable
variables. Declarations alone leave a trace, of their own name in the current scope.

* `scopes_closed` -- the kinds and the number of the scopes, and the calls under way.
* `only_mutable_values_change` -- what lies in the scopes.
-/

set_option autoImplicit false

namespace Scriptling

/-- The kinds of the scopes, from the inside out. -/
def Scopes.kinds (s : Scopes) : List ScopeKind := s.frames.map Frame.kind

namespace Machine

/-- The same kinds of scopes are open and the same calls under way. -/
structure SameNesting (m m' : Machine) : Prop where
  kinds : m'.scopes.kinds = m.scopes.kinds
  results : m'.results = m.results

variable {m m' : Machine}

theorem KeepsOuter.sameNesting (h : m.KeepsOuter m') : m.SameNesting m' where
  kinds := by
    show m'.scopes.current.kind :: m'.scopes.outer.map Frame.kind = _
    rw [h.scopes.kind, h.scopes.outer.kinds]
    rfl
  results := h.results

/-- An expression, evaluated on any machine, leaves all variables as they were. -/
theorem evaluate_keeps (n : Nat) (e : Expr) (m : Machine) :
    (evaluate n e m).EndsOn m.Keeps := by
  rw [← Traced.run_evaluate]
  exact (Traced.quiet_evaluate n e m (functionsOf_true m)).endsOn (fun _ _ h => h.1) fun _ _ h => h

/-- A statement, executed on any machine, changes no more than it may. -/
theorem execute_changes (n : Nat) (s : Statement) (m : Machine) :
    (execute n s m).EndsOn (m.Changes s) := by
  rw [← Traced.run_execute]
  exact (Traced.executes_execute n s m (fun _ _ => trivial) (functionsOf_true m)).endsOn
    (fun _ _ h => h.1) fun _ _ h => h

/-- Programs run one after another on a fresh machine take allowed actions and leave it idle. -/
theorem session_meets (n : Nat) (ps : List Program) (out : Output) :
    (Traced.session n ps).Meets (Action.Allowed fun _ => True) (fun _ m' => m'.Idle)
      (fun _ _ => False) (initial out) :=
  (Traced.meets_session n (fun _ _ _ _ => trivial) (idle_initial out) (functionsOf_true _)).mono
    (fun _ _ h => h.1) fun _ _ h => h

/-- **Scopes are closed on every path.** Evaluated or executed on any machine, expressions and statements
that come to an end, in whatever flow or fault, leave the same kinds of scopes open, in the same order, and
the same calls under way. So after programs run one after another on a fresh machine only the outermost
scope is open and no call is under way, and no scope was ever closed with the outermost alone open. -/
theorem scopes_closed :
    (∀ (n : Nat) (e : Expr) (m : Machine), (evaluate n e m).EndsOn m.SameNesting) ∧
    (∀ (n : Nat) (s : Statement) (m : Machine), (execute n s m).EndsOn m.SameNesting) ∧
    ∀ (n : Nat) (ps : List Program) (out : Output),
      (session n ps (initial out)).EndsOn Idle ∧
      ∀ as bs : List Action, (Traced.session n ps (initial out)).2 = as ++ .leave :: bs →
        (replay as (initial out)).scopes.outer ≠ [] := by
  refine ⟨fun n e m => ?_, fun n s m => ?_, fun n ps out => ⟨?_, fun as bs h => ?_⟩⟩
  · exact (evaluate_keeps n e m).mono fun _ h => h.keepsOuter.sameNesting
  · exact (execute_changes n s m).mono fun _ h => h.keepsOuter.sameNesting
  · rw [← Traced.run_session]
    exact (session_meets n ps out).endsOn (fun _ _ h => h) fun _ _ h => h.elim
  · have hlegal := (session_meets n ps out).legal
    rw [h] at hlegal
    exact hlegal.at

/-- **Only values of mutable variables change.** Evaluated on any machine, an expression that comes to an
end, with a value or a fault, leaves every scope with its functions, its names, and for every name the type
and mutability it had and, unless it is mutable, its value. So does a statement, save that a variable
declaration may have set its own name in the current scope, and a function declaration may have added its
own, of which no function was visible. -/
theorem only_mutable_values_change :
    (∀ (n : Nat) (e : Expr) (m : Machine),
      (evaluate n e m).EndsOn fun m' => m.scopes.Keeps m'.scopes) ∧
    ∀ (n : Nat) (s : Statement) (m : Machine),
      (execute n s m).EndsOn fun m' =>
        match s with
        | .var d => m.scopes.KeepsBut [d.name] m'.scopes
        | .func f =>
          m'.scopes = m.scopes ∨
            m.scopes.isFunctionDefined f.name = false ∧ m'.scopes = m.scopes.defineFunction f
        | _ => m.scopes.Keeps m'.scopes := by
  refine ⟨fun n e m => (evaluate_keeps n e m).mono fun _ h => h.scopes, fun n s m => ?_⟩
  refine (execute_changes n s m).mono fun m' h => ?_
  cases s with
  | func f =>
    rcases h with rfl | ⟨hnew, rfl⟩
    · exact .inl rfl
    · exact .inr ⟨hnew, rfl⟩
  | var d => exact KeepsBut.scopes h
  | _ => exact KeepsBut.scopes h

end Machine

end Scriptling
