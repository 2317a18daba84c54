import Scriptling.Proofs.Grammar.Segments
import Scriptling.Proofs.Machine.Constructs
import Scriptling.Proofs.Scope.Typed

/-!
# Scriptling.Proofs.Machine.Store -- variables and calls keep to their types

The moments of a session are the machines that the first parts of its list of actions make. Since each
action is one that is allowed where it is taken, what allowed actions preserve holds at all moments: all
variables are typed, and a variable that has a value keeps having one until its scope is closed or its name
is declared there again. A call yields a value of the type that its function promises, or nothing if its
body ended without `return`.
-/

set_option autoImplicit false

namespace Scriptling

/-- The types that variables of a program that was read can have. -/
abbrev ValueType.HasValues (t : ValueType) : Prop := t ≠ .void

/-! ## One action -/

namespace Action

variable {m : Machine} {a : Action}

theorem Allowed.binding_typed {x : String} {b : Binding}
    (h : (Action.define x b).Allowed ValueType.HasValues m) : b.Typed := ⟨h.1, h.2⟩

theorem Allowed.param_typed {p : Param} {v : Value}
    (h : (Action.pass p v).Allowed ValueType.HasValues m) :
    Binding.Typed ⟨v, p.type, !p.constant⟩ := ⟨h.1, .inr h.2⟩

/-- A value of a type with values is not `void`. -/
theorem ne_void_of_type {v : Value} {t : ValueType} (ht : t ≠ .void) (hv : v.type? = some t) :
    v ≠ .void := by
  rintro rfl
  cases hv
  exact ht rfl

/-- An allowed update finds its variable. -/
theorem Allowed.after_update {T : ValueType → Prop} {x : String} {v : Value}
    (h : (Action.update x v).Allowed T m) :
    ∃ b t, m.scopes.binding? x = some b ∧ v.type? = some b.type ∧ m.scopes.update? x v = some t ∧
      (Action.update x v).after m = { m with scopes := t } := by
  obtain ⟨b, hb, hmutable, hv⟩ := h
  obtain ⟨t, ht, -⟩ := Scopes.keeps_update? v hb hmutable
  refine ⟨b, t, hb, hv, ht, ?_⟩
  simp [Action.after, Action.perform, ht]

/-- Allowed actions leave all variables typed. -/
theorem Allowed.typed (h : a.Allowed ValueType.HasValues m) (hm : m.scopes.Typed) :
    (a.after m).scopes.Typed := by
  cases a with
  | load file => exact hm
  | enter kind => exact hm.enter kind
  | leave => exact hm.leave
  | start result => exact hm
  | stop => exact hm
  | define x b => exact hm.define x h.binding_typed
  | pass p v => exact hm.define p.name h.param_typed
  | defineFunction f => exact hm.defineFunction f
  | update x v =>
    obtain ⟨b, t, hb, hv, ht, hafter⟩ := h.after_update
    rw [hafter]
    exact hm.update? hb hv ht
  | write text => exact hm

/-- The action, taken on `m`, ends what is known of the variable `x` in the scope that has `i` scopes
around it: the scope is closed, or the name is declared in it. -/
def Renews (i : Nat) (x : String) (m : Machine) (a : Action) : Prop :=
  m.scopes.depth = i + 1 ∧
    match a with
    | leave => True
    | define y _ => y = x
    | pass p _ => p.name = x
    | _ => False

/-- Other allowed actions let a variable that has a value keep having one. -/
theorem Allowed.holds {i : Nat} {x : String} (h : a.Allowed ValueType.HasValues m)
    (hm : m.scopes.Typed) (ha : ¬ a.Renews i x m) (hx : m.scopes.Holds i x) :
    (a.after m).scopes.Holds i x := by
  cases a with
  | load file => exact hx
  | enter kind => exact hx.enter kind
  | leave => exact hx.leave h fun hdepth => ha ⟨hdepth, trivial⟩
  | start result => exact hx
  | stop => exact hx
  | define y b => exact hx.define b fun hdepth hyx => ha ⟨hdepth, hyx⟩
  | pass p v => exact hx.define _ fun hdepth hpx => ha ⟨hdepth, hpx⟩
  | defineFunction f => exact hx.defineFunction f
  | update y v =>
    obtain ⟨b, t, hb, hv, ht, hafter⟩ := h.after_update
    rw [hafter]
    exact hx.update? hb (ne_void_of_type (hm.binding? hb).type hv) ht
  | write text => exact hx

end Action

/-! ## All moments -/

section Moments

variable {as : List Action} {m : Machine}

theorem Legal.typed (h : Legal (Action.Allowed ValueType.HasValues) as m) (hm : m.scopes.Typed)
    (k : Nat) : (moment as m k).scopes.Typed :=
  h.invariant (I := fun m => m.scopes.Typed) (fun _ _ ha hm' => ha.typed hm') hm k

/-- A variable has a value from the moment it is first seen with one for as long as no action renews
it. -/
theorem Legal.holds {i j k : Nat} {x : String}
    (h : Legal (Action.Allowed ValueType.HasValues) as m) (hm : m.scopes.Typed) (hjk : j ≤ k)
    (hx : (moment as m j).scopes.Holds i x)
    (hkept : ∀ l a, j ≤ l → l < k → as[l]? = some a → ¬ a.Renews i x (moment as m l)) :
    (moment as m k).scopes.Holds i x := by
  -- On the later moment: the action before it was allowed, on a typed machine.
  induction hjk with
  | refl => exact hx
  | @step k hjk ih =>
    have hbefore : (moment as m k).scopes.Holds i x :=
      ih fun l a hjl hlk => hkept l a hjl (Nat.lt_succ_of_lt hlk)
    cases ha : as[k]? with
    | none =>
      rw [moment_succ_of_none ha]
      exact hbefore
    | some a =>
      rw [moment_succ ha]
      have hkeeps := hkept k a hjk (Nat.lt_succ_self k) ha
      exact (h.at_moment ha).holds (h.typed hm k) hkeeps hbefore

/-- A parameter has a value from the start. -/
theorem Legal.holds_param {k : Nat} {p : Param} {v : Value}
    (h : Legal (Action.Allowed ValueType.HasValues) as m) (hp : as[k]? = some (.pass p v)) :
    (moment as m (k + 1)).scopes.Holds (moment as m k).scopes.outer.length p.name := by
  have hallowed := h.at_moment hp
  rw [moment_succ hp]
  exact .of_define _ p.name (Action.ne_void_of_type hallowed.1 hallowed.2)

end Moments

namespace Machine

/-! ## Calls -/

/-- Arguments that are passed on are of the types of the parameters. -/
theorem arguments_fit {n : Nat} {ps : List Param} {es : List Expr} {vs : List Value}
    {m m' : Machine} (hlength : ps.length = es.length)
    (h : arguments (evaluate n) ps es m = .done (.ok vs) m') :
    List.Forall₂ (fun p v => v.type? = some p.type) ps vs := by
  have hquiet := Traced.quiet_arguments (Traced.quiet_evaluate n) ps es m (functionsOf_true m)
  rw [← Traced.run_arguments] at h
  obtain ⟨-, hfit⟩ := hquiet.of_done h
  exact hfit vs rfl hlength

/-- A body that is left with a value is left with one of the promised type. -/
theorem bodyFlow_answers {n : Nat} {f : Function} {vs : List Value} {m m' : Machine} {v : Value}
    (hvs : List.Forall₂ (fun p v => v.type? = some p.type) f.params vs)
    (h : bodyFlow (execute n) f vs m = .done (.leaveCall v) m') : v.type? = some f.result := by
  have hquiet := Traced.quiet_bodyFlow (Traced.executes_execute n) hvs (fun _ _ => trivial) m
    (functionsOf_true m)
  rw [← Traced.run_bodyFlow] at h
  obtain ⟨-, t, ht, hv⟩ := hquiet.of_done h
  cases ht
  exact hv

/-- How a call came to its value: the body of the function was left with a value of the promised type, or
it was run to its end and there is none. -/
def Answered (n : Nat) (f : Function) (vs : List Value) (m : Machine) (v : Value) (m' : Machine) :
    Prop :=
  bodyFlow (execute n) f vs m = .done (.leaveCall v) m' ∧ v.type? = some f.result ∨
    bodyFlow (execute n) f vs m = .done .next m' ∧ v = .void

theorem body_answered {n : Nat} {f : Function} {vs : List Value} {line : Nat} {m m' : Machine}
    {v : Value} (hvs : List.Forall₂ (fun p v => v.type? = some p.type) f.params vs)
    (h : body (execute n) f vs line m = .done v m') : Answered n f vs m v m' := by
  obtain ⟨flow, m₁, hflow, hend⟩ := Run.bind_eq_done.1 h
  cases flow with
  -- The body was run to its end.
  | next =>
    cases hend
    exact .inr ⟨hflow, rfl⟩
  | leaveCall w =>
    cases hend
    exact .inl ⟨hflow, bodyFlow_answers hvs hflow⟩
  -- An exit that is left over is raised as a fault.
  | leaveLoop => cases hend
  | leaveConditional => cases hend

/-- A call that does not fail finds its function, and its value is one that the function promises. -/
theorem call_answered {n : Nat} {name : String} {es : List Expr} {line : Nat} {m m' : Machine}
    {v : Value} (h : call (evaluate n) (execute n) name es line m = .done v m')
    (hv : v.isFault = false) :
    ∃ f vs m₁, m.scopes.function? name = some f ∧
      arguments (evaluate n) f.params es m = .done (.ok vs) m₁ ∧ Answered n f vs m₁ v m' := by
  obtain ⟨o, m₀, hread, hfound⟩ := Run.bind_eq_done.1 h
  rw [Run.read_apply] at hread
  cases hread
  cases hf : m.scopes.function? name with
  | none =>
    rw [hf] at hfound
    cases hfound
    cases hv
  | some f =>
    rw [hf] at hfound
    dsimp only at hfound
    by_cases hlength : f.params.length = es.length
    · rw [if_pos hlength] at hfound
      obtain ⟨r, m₁, hargs, hend⟩ := Run.bind_eq_done.1 hfound
      cases r with
      | error fault =>
        cases hend
        cases hv
      | ok vs =>
        have hvs := arguments_fit hlength hargs
        exact ⟨f, vs, m₁, rfl, hargs, body_answered hvs hend⟩
    · rw [if_neg hlength] at hfound
      cases hfound
      cases hv

/-! ## Sessions -/

/-- The actions of programs that are run one after another on a fresh machine, each in time `n`. -/
def actions (n : Nat) (ps : List Program) (out : Output) : List Action :=
  (Traced.session n ps (initial out)).2

/-- The moments of such a session. -/
def sessionMoment (n : Nat) (ps : List Program) (out : Output) (k : Nat) : Machine :=
  moment (actions n ps out) (initial out) k

/-- A session that comes to an end leaves the machine of its last moment. -/
theorem session_eq_moment {n : Nat} {ps : List Program} {out : Output} {m : Machine}
    (h : session n ps (initial out) = .done () m) :
    m = sessionMoment n ps out (actions n ps out).length := by
  rw [← Traced.run_session] at h
  rw [sessionMoment, moment_length]
  exact (Traced.run_eq_done h).2

/-- Programs that were read take only actions that are allowed where no variable is of type `void`. -/
theorem legal_actions {ps : List Program}
    (hps : ∀ p ∈ ps, ∃ source file, Program.ofText source file = .ok p) (n : Nat) (out : Output) :
    Legal (Action.Allowed ValueType.HasValues) (actions n ps out) (initial out) := by
  have htypes : ∀ p ∈ ps, ∀ t ∈ Statement.declaredTypesAll p.statements, t ≠ .void := by
    intro p hp
    obtain ⟨source, file, hread⟩ := hps p hp
    exact Program.declaredTypes_ne_void hread
  exact (Traced.meets_session n htypes (idle_initial out) (functionsOf_initial _ out)).legal

/-- **Variables and calls keep to their types.** Let programs that were read be run one after another on a
fresh machine, each to its end, to a fault or for as long as there is time. At every moment, of which the
last is the machine that the session leaves, every variable of every scope has no value yet or one of its
declared type, and never a fault. A variable that has a value at one moment has one at every later moment,
unless its scope has been closed or its name declared there again; a parameter has a value from the start.
And every call, on whatever machine, that yields something other than a fault yields what the body of the
function was left with, which is of the type that the function promises, or nothing if the body was run to
its end. -/
theorem variables_and_calls_typed (n : Nat) (ps : List Program) (out : Output)
    (hps : ∀ p ∈ ps, ∃ source file, Program.ofText source file = .ok p) :
    (∀ m, session n ps (initial out) = .done () m →
      m = sessionMoment n ps out (actions n ps out).length) ∧
    (∀ k, ∀ f ∈ (sessionMoment n ps out k).scopes.frames, ∀ x b, f.bindings.get? x = some b →
      (b.value = .void ∨ b.value.type? = some b.type) ∧ b.value.isFault = false) ∧
    (∀ i x j k, j ≤ k → (sessionMoment n ps out j).scopes.Holds i x →
      (∀ l a, j ≤ l → l < k → (actions n ps out)[l]? = some a →
        ¬ a.Renews i x (sessionMoment n ps out l)) →
      (sessionMoment n ps out k).scopes.Holds i x) ∧
    (∀ k p v, (actions n ps out)[k]? = some (.pass p v) →
      (sessionMoment n ps out (k + 1)).scopes.Holds
        (sessionMoment n ps out k).scopes.outer.length p.name) ∧
    (∀ time name es line m v m',
      call (evaluate time) (execute time) name es line m = .done v m' → v.isFault = false →
      ∃ f vs m₁, m.scopes.function? name = some f ∧
        arguments (evaluate time) f.params es m = .done (.ok vs) m₁ ∧
        Answered time f vs m₁ v m') := by
  have hlegal := legal_actions hps n out
  have htyped : (initial out).scopes.Typed := .initial
  refine ⟨?_, ?_, ?_, ?_, ?_⟩
  · intro m h
    exact session_eq_moment h
  · intro k f hf x b hb
    have hbinding : b.Typed := hlegal.typed htyped k f hf x b hb
    exact ⟨hbinding.value, hbinding.not_fault⟩
  · intro i x j k hjk hx hkept
    exact hlegal.holds htyped hjk hx hkept
  · intro k p v hp
    exact hlegal.holds_param hp
  · intro time name es line m v m' h hv
    exact call_answered h hv

/-- A program that calls a function: `x` is given twice two. -/
def doubling : Program := ⟨"doubling", [
  .func ⟨"f", .int, [⟨"a", .int, false, 1⟩],
    ⟨[.return_ (some (.binary (.arithmetic .add) (.name "a" 1) (.name "a" 1) 1)) 1], 1⟩, 1⟩,
  .var ⟨"x", .int, false, some (.call "f" [.literal (.int 2) 1] 1), 1⟩]⟩

theorem ofText_doubling :
    Program.ofText "f: func(a: int) -> int \x7b return a + a; \x7d x: int = f(2);" "doubling" =
      .ok doubling := by
  cbv

/-- The program was read. Its sixth action passes the parameter, which has a value then, in the scope with
one scope around it. -/
theorem doubling_typed :
    (∀ p ∈ [doubling], ∃ source file, Program.ofText source file = .ok p) ∧
    (actions 20 [doubling] (.empty none))[5]? = some (.pass ⟨"a", .int, false, 1⟩ (.int 2)) ∧
    (sessionMoment 20 [doubling] (.empty none) 6).scopes.Holds
      (sessionMoment 20 [doubling] (.empty none) 5).scopes.outer.length "a" ∧
    ∀ k, ∀ f ∈ (sessionMoment 20 [doubling] (.empty none) k).scopes.frames, ∀ x b,
      f.bindings.get? x = some b →
      (b.value = .void ∨ b.value.type? = some b.type) ∧ b.value.isFault = false := by
  have hread : ∀ p ∈ [doubling], ∃ source file, Program.ofText source file = .ok p := by
    intro p hp
    rw [List.mem_singleton.1 hp]
    exact ⟨_, _, ofText_doubling⟩
  have hpass : (actions 20 [doubling] (.empty none))[5]? =
      some (.pass ⟨"a", .int, false, 1⟩ (.int 2)) := by
    cbv
  obtain ⟨-, htyped, -, hparam, -⟩ := variables_and_calls_typed 20 [doubling] (.empty none) hread
  exact ⟨hread, hpass, hparam 5 _ _ hpass, htyped⟩

end Machine

end Scriptling
