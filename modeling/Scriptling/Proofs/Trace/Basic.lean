import Scriptling.Proofs.Machine.Calls

/-!
# Scriptling.Proofs.Trace.Basic -- programs by the list of their actions

The language is written against `Effects`. Carried out for its result a computation is a `Run`; here it is
carried out for the list of its actions, as a `Traced`. What a machine looks like at any moment of a
computation, also of one that never ends, is what replaying a first part of that list makes of it.

* `replay` -- the machine after a list of actions.
* `Traced` -- a verdict and the actions up to it.
* `Interpretation` -- constructs of the language are the same computation whatever carries them out.
* `Traced.run_evaluate`, `Traced.run_execute`, `Traced.run_session` -- a computation and its list of actions
  agree on how the computation ends and on the machine it leaves.
-/

set_option autoImplicit false

namespace Scriptling

/-! ## Replaying actions -/

/-- The machine after an action. -/
def Action.after (a : Action) (m : Machine) : Machine := (a.perform m).1

/-- The machine after a list of actions. -/
def replay : List Action → Machine → Machine
  | [], m => m
  | a :: as, m => replay as (a.after m)

/-- Actions can be replayed in two parts. -/
theorem replay_append (as bs : List Action) (m : Machine) :
    replay (as ++ bs) m = replay bs (replay as m) := by
  induction as generalizing m with
  | nil => rfl
  | cons a as ih => exact ih (a.after m)

/-! ## Computations by their actions -/

/-- How a computation ends, the machine left aside. -/
inductive Verdict (α : Type) where
  | done (a : α)
  | raised (e : RuntimeError)
  | exhausted

/-- A computation carried out for its actions. The machine it leaves is the one its actions make, so it is
not part of the verdict. -/
def Traced (α : Type) : Type := Machine → Verdict α × List Action

namespace Traced

variable {α β : Type}

/-- Goes on with a result on the machine that the actions so far have made. -/
def bind (x : Traced α) (f : α → Traced β) : Traced β := fun m =>
  match x m with
  | (.done a, as) => ((f a (replay as m)).1, as ++ (f a (replay as m)).2)
  | (.raised e, as) => (.raised e, as)
  | (.exhausted, as) => (.exhausted, as)

/-- A computation and, unless its time runs out, an action after it. -/
def always (a : Action) (x : Traced α) : Traced α := fun m =>
  match x m with
  | (.exhausted, as) => (.exhausted, as)
  | (v, as) => (v, as ++ [a])

instance : Monad Traced where
  pure a := fun _ => (.done a, [])
  bind := bind

instance : Effects Traced where
  exhausted := fun _ => (.exhausted, [])
  read f := fun m => (.done (f m), [])
  act a := fun m => (.done (a.perform m).2, [a])
  raise f line := fun m => (.raised ⟨m.file, line, f⟩, [])
  always := always

/-- The computation as one that is carried out for its result. -/
def run (x : Traced α) : Run α := fun m =>
  match x m with
  | (.done a, as) => .done a (replay as m)
  | (.raised e, as) => .raised e (replay as m)
  | (.exhausted, _) => .exhausted

/-- A raised fault becomes a result. -/
def attempt (x : Traced α) : Traced (Except RuntimeError α) := fun m =>
  match x m with
  | (.done a, as) => (.done (.ok a), as)
  | (.raised e, as) => (.done (.error e), as)
  | (.exhausted, as) => (.exhausted, as)

end Traced

/-- A raised fault becomes a result, and the machine is as it was raised on. -/
def Run.attempt {α : Type} (x : Run α) : Run (Except RuntimeError α) := fun m =>
  match x m with
  | .done a m' => .done (.ok a) m'
  | .raised e m' => .done (.error e) m'
  | .exhausted => .exhausted

/-- Interprets programs one after another on one machine, also after a fault, each in time `n`. -/
def Machine.session (n : Nat) : List Program → Run Unit
  | [] => pure ()
  | p :: ps => do
    let _ ← Run.attempt (Machine.interpret n p)
    Machine.session n ps

/-! ## One computation, carried out in two ways -/

open Effects

/-- A way to turn computations of one kind into computations of another that respects everything a
computation can do. -/
structure Interpretation (M N : Type → Type) [Effects M] [Effects N] where
  map : {α : Type} → M α → N α
  map_pure : ∀ {α : Type} (a : α), map (pure a : M α) = pure a
  map_bind : ∀ {α β : Type} (x : M α) (f : α → M β), map (x >>= f) = map x >>= fun a => map (f a)
  map_exhausted : ∀ {α : Type}, map (exhausted : M α) = exhausted
  map_read : ∀ {α : Type} (f : Machine → α), map (read f : M α) = read f
  map_act : ∀ (a : Action), map (act a : M Bool) = act a
  map_raise : ∀ {α : Type} (f : Fault) (line : Nat), map (raise f line : M α) = raise f line
  map_always : ∀ {α : Type} (a : Action) (x : M α), map (always a x) = always a (map x)

namespace Interpretation

open Machine

variable {M N : Type → Type} [Effects M] [Effects N] (φ : Interpretation M N)

attribute [simp] map_pure map_bind map_exhausted map_read map_act map_raise map_always

/-- Deciding on a condition commutes with carrying out. -/
@[simp] theorem map_ite {α : Type} (c : Prop) [Decidable c] (x y : M α) :
    φ.map (if c then x else y) = if c then φ.map x else φ.map y := by
  split <;> rfl

/-- A scope is entered and left by the same actions in both ways, also after a fault. -/
@[simp] theorem map_inScope {α : Type} (kind : ScopeKind) (x : M α) :
    φ.map (inScope kind x) = inScope kind (φ.map x) := by
  simp [inScope]

@[simp] theorem map_inCall {α : Type} (result : ValueType) (x : M α) :
    φ.map (inCall result x) = inCall result (φ.map x) := by
  simp [inCall]

variable (eval : Expr → M Value) (exec : Statement → M Flow)

/-- Expressions, carried out anew. -/
abbrev onExpr : Expr → N Value := fun e => φ.map (eval e)

/-- Statements, carried out anew. -/
abbrev onStatement : Statement → N Flow := fun s => φ.map (exec s)

theorem map_checked (e : Expr) : φ.map (checked eval e) = checked (φ.onExpr eval) e := by
  simp only [checked, map_bind]
  congr 1
  funext v
  cases v <;> simp

theorem map_store (x : String) (v : Value) : φ.map (store x v) = store x v := by
  simp [store]

theorem map_assignment (op : AssignOperator) (x : String) (e : Expr) :
    φ.map (assignment eval op x e) = assignment (φ.onExpr eval) op x e := by
  simp only [assignment, map_bind, map_read]
  congr 1
  funext b
  cases b with
  | none => simp
  | some b => simp [map_store]

/-- The arguments after one that fails are carried out in neither way. -/
theorem map_arguments (ps : List Param) (es : List Expr) :
    φ.map (arguments eval ps es) = arguments (φ.onExpr eval) ps es := by
  induction ps generalizing es with
  | nil => simp [arguments]
  | cons p ps ih =>
    cases es with
    | nil => simp [arguments]
    | cons e es =>
      simp only [arguments, map_bind]
      congr 1
      funext v
      cases v with
      | fault f => simp
      | _ =>
        simp only [map_ite, map_bind, map_pure, ih]
        congr 2
        funext r
        cases r <;> simp

theorem map_sequence (ss : List Statement) :
    φ.map (Machine.sequence exec ss) = Machine.sequence (φ.onStatement exec) ss := by
  induction ss with
  | nil => simp [Machine.sequence]
  | cons s ss ih =>
    simp only [Machine.sequence, map_bind]
    congr 1
    funext flow
    cases flow <;> simp [ih]

theorem map_defineParams (ps : List Param) (vs : List Value) :
    φ.map (defineParams ps vs) = defineParams ps vs := by
  induction ps generalizing vs with
  | nil => simp [defineParams]
  | cons p ps ih => cases vs <;> simp [defineParams, ih]

theorem map_bodyFlow (f : Function) (vs : List Value) :
    φ.map (bodyFlow exec f vs) = bodyFlow (φ.onStatement exec) f vs := by
  simp [bodyFlow, map_defineParams, map_sequence]

theorem map_body (f : Function) (vs : List Value) (line : Nat) :
    φ.map (body exec f vs line) = body (φ.onStatement exec) f vs line := by
  simp only [body, map_bind, map_bodyFlow]
  congr 1
  funext flow
  cases flow <;> simp

/-- A call commutes with carrying out, if that is done to the body of the called function as well. -/
theorem map_callWithin (exec : Function → Statement → M Flow) (name : String) (es : List Expr)
    (line : Nat) :
    φ.map (callWithin eval exec name es line) =
      callWithin (φ.onExpr eval) (fun f => φ.onStatement (exec f)) name es line := by
  simp only [callWithin, map_bind, map_read]
  congr 1
  funext f
  cases f with
  | none => simp
  | some f =>
    simp only [map_ite, map_bind, map_pure, map_arguments]
    congr 2
    funext r
    cases r <;> simp [map_body]

theorem map_expressionWithin (exec : Function → Statement → M Flow) (e : Expr) :
    φ.map (expressionWithin eval exec e) =
      expressionWithin (φ.onExpr eval) (fun f => φ.onStatement (exec f)) e := by
  cases e <;> simp [expressionWithin, expression, map_callWithin, map_assignment]

theorem map_expression (e : Expr) :
    φ.map (expression eval exec e) = expression (φ.onExpr eval) (φ.onStatement exec) e := by
  rw [← expressionWithin_const, map_expressionWithin, expressionWithin_const]

theorem map_declare (d : VarDecl) : φ.map (declare eval d) = declare (φ.onExpr eval) d := by
  unfold declare
  cases d.initial <;> simp [map_checked]

theorem map_declareFunction (f : Function) :
    φ.map (declareFunction f) = declareFunction f := by
  simp [declareFunction]

theorem map_printText (text : String) (line : Nat) :
    φ.map (printText text line) = printText text line := by
  simp [printText]

theorem map_printAll (line : Nat) (es : List Expr) :
    φ.map (printAll eval line es) = printAll (φ.onExpr eval) line es := by
  induction es with
  | nil => simp [printAll, map_printText]
  | cons e es ih => simp [printAll, map_checked, map_printText, ih]

theorem map_answer (value : Option Expr) (line : Nat) :
    φ.map (answer eval value line) = answer (φ.onExpr eval) value line := by
  simp only [answer, map_bind, map_read]
  congr 1
  funext result
  cases result <;> cases value <;> simp [map_checked]

theorem map_leave (kind : Exit) (line : Nat) : φ.map (leave kind line) = leave kind line := by
  simp [leave]

theorem map_block (kind : ScopeKind) (b : Block) :
    φ.map (block exec kind b) = block (φ.onStatement exec) kind b := by
  simp [block, map_sequence]

theorem map_condition (e : Expr) : φ.map (condition eval e) = condition (φ.onExpr eval) e := by
  simp [condition, map_checked]

theorem map_branch (b : Block) : φ.map (branch exec b) = branch (φ.onStatement exec) b := by
  simp only [branch, map_bind, map_block]
  congr 1
  funext flow
  cases flow <;> simp

theorem map_branches (bs : Branches) :
    φ.map (branches eval exec bs) = branches (φ.onExpr eval) (φ.onStatement exec) bs := by
  cases bs with
  | done => simp [branches]
  | elif c b rest line =>
    have ih := map_branches rest
    simp [branches, map_condition, map_branch, ih]
  | otherwise b line => simp [branches, map_branch]

/-- A loop commutes with carrying out, round by round. -/
theorem map_repeated (c : Expr) (b : Block) (step : M Unit) (n : Nat) :
    φ.map (repeated eval exec c b step n) =
      repeated (φ.onExpr eval) (φ.onStatement exec) c b (φ.map step) n := by
  induction n with
  | zero => simp [repeated]
  | succ n ih =>
    simp only [repeated, map_bind, map_condition, map_ite, map_block, map_pure]
    congr 1
    funext taken
    congr 2
    funext flow
    cases flow <;> simp [ih]

theorem map_counted (d : VarDecl) (c step : Expr) (b : Block) (n : Nat) :
    φ.map (counted eval exec d c step b n) =
      counted (φ.onExpr eval) (φ.onStatement exec) d c step b n := by
  simp [counted, map_declare, map_repeated, map_checked]

/-- A statement is carried out by carrying out its parts. -/
theorem map_statement (n : Nat) (s : Statement) :
    φ.map (statement eval exec n s) = statement (φ.onExpr eval) (φ.onStatement exec) n s := by
  cases s <;>
    simp [statement, map_declare, map_declareFunction, map_checked, map_printAll, map_block,
      map_condition, map_branch, map_branches, map_repeated, map_counted, map_answer, map_leave]

theorem map_each (ss : List Statement) :
    φ.map (each exec ss) = each (φ.onStatement exec) ss := by
  induction ss with
  | nil => simp [each]
  | cons s ss ih => simp [each, ih]

theorem map_program (p : Program) : φ.map (program exec p) = program (φ.onStatement exec) p := by
  simp [program, map_each]

end Interpretation

/-! ## Programs carried out for their actions -/

namespace Traced

variable {α β : Type}

/-- What goes on with a result begins on the machine that the actions up to it have made. -/
theorem run_bind (x : Traced α) (f : α → Traced β) :
    (x >>= f).run = x.run >>= fun a => (f a).run := by
  funext m
  show Traced.run (Traced.bind x f) m = _
  rw [Run.bind_apply]
  unfold Traced.run Traced.bind
  rcases hx : x m with ⟨a | e | _, as⟩
  · rcases hf : f a (replay as m) with ⟨b | e | _, bs⟩ <;> simp [hf, replay_append]
  · simp
  · simp

/-- The action at the end comes after all others, unless time runs out and there is no machine to act on. -/
theorem run_always (a : Action) (x : Traced α) :
    (Effects.always a x).run = Effects.always a x.run := by
  funext m
  show Traced.run (Traced.always a x) m = Run.finally_ (fun m => (a.perform m).1) x.run m
  unfold Traced.run Traced.always Run.finally_
  rcases hx : x m with ⟨v | e | _, as⟩ <;> simp [hx, replay_append, replay, Action.after]

/-- Carrying out for the result what was carried out for the actions. -/
def carry : Interpretation Traced Run where
  map := Traced.run
  map_pure _ := rfl
  map_bind := run_bind
  map_exhausted := rfl
  map_read _ := rfl
  map_act _ := rfl
  map_raise _ _ := rfl
  map_always := run_always

mutual

/-- Evaluates an expression in time `n`, for the actions. -/
def evaluate : Nat → Expr → Traced Value
  | 0, _ => exhausted
  | n + 1, e => Machine.expression (evaluate n) (execute n) e

/-- Executes a statement in time `n`, for the actions. -/
def execute : Nat → Statement → Traced Flow
  | 0, _ => exhausted
  | n + 1, s => Machine.statement (evaluate n) (execute n) n s

end

/-- Interprets a program in time `n`, for the actions. -/
def interpret (n : Nat) (p : Program) : Traced Unit := Machine.program (execute n) p

/-- Interprets programs one after another on one machine, also after a fault, each in time `n`, for the
actions. -/
def session (n : Nat) : List Program → Traced Unit
  | [] => pure ()
  | p :: ps => do
    let _ ← attempt (interpret n p)
    session n ps

/-- An expression ends the same way, on the same machine, with its actions listed or not; and so does a
statement. -/
theorem run_evaluate_execute (n : Nat) :
    (∀ e, (evaluate n e).run = Machine.evaluate n e) ∧
      ∀ s, (execute n s).run = Machine.execute n s := by
  -- On the time: a construct is carried out by its parts, which have less of it.
  induction n with
  | zero => exact ⟨fun _ => rfl, fun _ => rfl⟩
  | succ n ih =>
    have he : carry.onExpr (evaluate n) = Machine.evaluate n := funext ih.1
    have hs : carry.onStatement (execute n) = Machine.execute n := funext ih.2
    constructor
    · intro e
      have h := carry.map_expression (evaluate n) (execute n) e
      rw [he, hs] at h
      exact h
    · intro s
      have h := carry.map_statement (evaluate n) (execute n) n s
      rw [he, hs] at h
      exact h

theorem run_evaluate (n : Nat) (e : Expr) : (evaluate n e).run = Machine.evaluate n e :=
  (run_evaluate_execute n).1 e

theorem run_execute (n : Nat) (s : Statement) : (execute n s).run = Machine.execute n s :=
  (run_evaluate_execute n).2 s

theorem onExpr_evaluate (n : Nat) : carry.onExpr (evaluate n) = Machine.evaluate n :=
  funext (run_evaluate n)

theorem onStatement_execute (n : Nat) : carry.onStatement (execute n) = Machine.execute n :=
  funext (run_execute n)

theorem run_arguments (n : Nat) (ps : List Param) (es : List Expr) :
    (Machine.arguments (evaluate n) ps es).run = Machine.arguments (Machine.evaluate n) ps es := by
  rw [← onExpr_evaluate]
  exact carry.map_arguments (evaluate n) ps es

theorem run_bodyFlow (n : Nat) (f : Function) (vs : List Value) :
    (Machine.bodyFlow (execute n) f vs).run = Machine.bodyFlow (Machine.execute n) f vs := by
  rw [← onStatement_execute]
  exact carry.map_bodyFlow (execute n) f vs

/-- A program ends the same way with its actions listed or not. -/
theorem run_interpret (n : Nat) (p : Program) : (interpret n p).run = Machine.interpret n p := by
  rw [Machine.interpret, ← onStatement_execute]
  exact carry.map_program (execute n) p

/-- A fault that has become a result leaves the machine as it was raised on. -/
theorem run_attempt (x : Traced α) : (attempt x).run = Run.attempt x.run := by
  funext m
  unfold Traced.run Traced.attempt Run.attempt
  rcases hx : x m with ⟨a | e | _, as⟩ <;> simp [hx]

/-- Programs one after another end the same way, too, each on the machine that those before it have left. -/
theorem run_session (n : Nat) (ps : List Program) :
    (session n ps).run = Machine.session n ps := by
  induction ps with
  | nil => rfl
  | cons p ps ih =>
    rw [session, run_bind, run_attempt, run_interpret, ih]
    rfl

end Traced

end Scriptling
