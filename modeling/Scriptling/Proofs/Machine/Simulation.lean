import Scriptling.Machine.Evaluate
import Scriptling.Proofs.Syntax.Lines

/-!
# Scriptling.Proofs.Machine.Simulation -- one program carried out in two ways

Many facts relate two computations of a program: the same program on other lines, the same program with less
room for its output. They are proved alike. A `Simulation` relates computations of two kinds step by step: there
is a law for each thing that a computation can do, where the lines of the second computation may be other ones,
and going on with results keeps the relation. For each construct of the language there is one lemma: if the parts
of the construct match, so does the construct. Expressions ask for less than statements, so what they need is a
`Correspondence`, which can be had where there is no simulation.

Where a computation stands among the statements under way is its place, because the error of a print that fails
is put on the line of the statement: only inside a print statement, and with its line, is a text printed.

* `Correspondence`, `Simulation` -- the laws.
* `Correspondence.expression`, `Simulation.statement`, `Simulation.each` -- the constructs.
* `Simulation.evaluate_execute` -- expressions and statements in any time.
-/

set_option autoImplicit false

namespace Scriptling

open Effects Machine

/-- A relation between computations carried out in two ways that follows from what they do step by step, as far as
expressions are concerned. `Matches p g x y` says that, begun at the place `p`, the computation `y` is what becomes
of `x`, where results are changed by `g`. -/
structure Correspondence (M N : Type → Type) [Effects M] [Effects N] where
  /-- The line in the second program of what is on a line of the first. -/
  line : Nat → Nat
  /-- What the relation distinguishes of the statements under way. -/
  Place : Type
  Matches : Place → {α β : Type} → (α → β) → M α → N β → Prop
  matches_pure : ∀ {p : Place} {α β : Type} {g : α → β} (a : α),
    Matches p g (pure a : M α) (pure (g a) : N β)
  matches_bind : ∀ {p : Place} {α β γ δ : Type} {g : α → β} {h : γ → δ} {x : M α} {y : N β}
    {k : α → M γ} {l : β → N δ},
    Matches p g x y → (∀ a, Matches p h (k a) (l (g a))) → Matches p h (x >>= k) (y >>= l)
  matches_raise : ∀ {p : Place} {α β : Type} {g : α → β} (f : Fault) (n : Nat),
    Matches p g (raise f n : M α) (raise f (line n) : N β)
  matches_binding? : ∀ (p : Place) (x : String),
    Matches p id (read fun m => m.scopes.binding? x) (read fun m => m.scopes.binding? x)
  matches_get : ∀ (p : Place) (x : String),
    Matches p id (read fun m => m.scopes.get x) (read fun m => m.scopes.get x)
  matches_function? : ∀ (p : Place) (x : String),
    Matches p (Option.map (Function.reline line))
      (read fun m => m.scopes.function? x) (read fun m => m.scopes.function? x)
  matches_update : ∀ (p : Place) (x : String) (v : Value),
    Matches p id (act (.update x v)) (act (.update x v))

/-- A relation of this kind as far as statements are concerned. -/
structure Simulation (M N : Type → Type) [Effects M] [Effects N] extends Correspondence M N where
  under : Statement → Place → Place
  matches_exhausted : ∀ {p : Place} {α β : Type} {g : α → β},
    Matches p g (exhausted : M α) (exhausted : N β)
  matches_isFunctionDefined : ∀ (p : Place) (x : String),
    Matches p id (read fun m => m.scopes.isFunctionDefined x)
      (read fun m => m.scopes.isFunctionDefined x)
  matches_promise : ∀ p : Place,
    Matches p id (read fun m => m.results.head?) (read fun m => m.results.head?)
  matches_within : ∀ (p : Place) (kind : Exit),
    Matches p id (read fun m => m.scopes.within (exitScope kind))
      (read fun m => m.scopes.within (exitScope kind))
  matches_define : ∀ (p : Place) (x : String) (b : Binding),
    Matches p id (act (.define x b)) (act (.define x b))
  matches_pass : ∀ (p : Place) (q : Param) (v : Value),
    Matches p id (act (.pass q v)) (act (.pass (q.reline line) v))
  matches_defineFunction : ∀ (p : Place) (f : Function),
    Matches p id (act (.defineFunction f)) (act (.defineFunction (f.reline line)))
  matches_inScope : ∀ {p : Place} {α β : Type} {g : α → β} {x : M α} {y : N β} (kind : ScopeKind),
    Matches p g x y → Matches p g (inScope kind x) (inScope kind y)
  matches_inCall : ∀ {p : Place} {α β : Type} {g : α → β} {x : M α} {y : N β} (result : ValueType),
    Matches p g x y → Matches p g (inCall result x) (inCall result y)
  /-- A text is printed by a print statement, and its line is that of the statement. -/
  matches_printText : ∀ (p : Place) (e : Expr) (es : List Expr) (n : Nat) (text : String),
    Matches (under (.print e es n) p) id (printText text n) (printText text (line n))

/-! ## Expressions -/

namespace Correspondence

variable {M N : Type → Type} [Effects M] [Effects N] (D : Correspondence M N) {p : D.Place}

section Laws

variable {α β γ δ : Type} {g : α → β} {h : γ → δ}

/-- The same result. -/
theorem same (a : α) : D.Matches p id (pure a : M α) (pure a : N α) := D.matches_pure a

/-- Going on with the same result. -/
theorem bind {x : M α} {y : N α} {k : α → M γ} {l : α → N δ} (hx : D.Matches p id x y)
    (hk : ∀ a, D.Matches p h (k a) (l a)) : D.Matches p h (x >>= k) (y >>= l) :=
  D.matches_bind hx hk

/-- The same condition. -/
theorem ite {c : Prop} [Decidable c] {x x' : M α} {y y' : N β} (hx : D.Matches p g x y)
    (hx' : D.Matches p g x' y') : D.Matches p g (if c then x else x') (if c then y else y') := by
  split
  · exact hx
  · exact hx'

end Laws

section Constructs

variable {eval : Expr → M Value} {eval' : Expr → N Value} {exec : Statement → M Flow}
  {exec' : Statement → N Flow} (heval : ∀ e, D.Matches p id (eval e) (eval' (e.reline D.line)))

include heval

theorem checked (e : Expr) :
    D.Matches p id (Machine.checked eval e) (Machine.checked eval' (e.reline D.line)) := by
  refine D.bind (heval e) fun v => ?_
  cases v with
  | fault f =>
    dsimp only
    rw [Expr.line_reline]
    exact D.matches_raise f e.line
  | _ => exact D.same _

theorem condition (e : Expr) :
    D.Matches p id (Machine.condition eval e) (Machine.condition eval' (e.reline D.line)) :=
  D.bind (D.checked heval e) fun _ => D.same _

omit heval in
theorem store (p : D.Place) (x : String) (v : Value) :
    D.Matches p id (Machine.store x v) (Machine.store x v) := by
  exact D.bind (D.matches_update p x v) fun _ => D.ite (D.same _) (D.same _)

theorem assignment (op : AssignOperator) (x : String) (e : Expr) :
    D.Matches p id (Machine.assignment eval op x e)
      (Machine.assignment eval' op x (e.reline D.line)) := by
  refine D.bind (D.matches_binding? p x) fun o => ?_
  cases o with
  | none => exact D.same _
  | some b =>
    refine D.ite (D.bind (heval e) fun v => D.ite (D.same _) ?_) (D.same _)
    refine D.bind (D.matches_get p x) fun current => D.ite (D.same _) ?_
    exact D.ite (D.store p x _) (D.same _)

theorem arguments (ps : List Param) (es : List Expr) :
    D.Matches p id (Machine.arguments eval ps es)
      (Machine.arguments eval' (ps.map (Param.reline D.line)) (es.map (Expr.reline D.line))) := by
  induction ps generalizing es with
  | nil => exact D.same _
  | cons q ps ih =>
    cases es with
    | nil => exact D.same _
    | cons e es =>
      refine D.bind (heval e) fun v => ?_
      cases v with
      | fault f => exact D.same _
      | _ =>
        refine D.ite (D.bind (ih es) fun r => ?_) (D.same _)
        cases r <;> exact D.same _

/-- A variable is declared alike if it is defined alike. -/
theorem declare (d : VarDecl)
    (hdefine : ∀ b, D.Matches p id (act (.define d.name b)) (act (.define d.name b))) :
    D.Matches p id (Machine.declare eval d) (Machine.declare eval' (d.reline D.line)) := by
  rcases d with ⟨x, type, constant, initial, n⟩
  unfold Machine.declare VarDecl.reline
  cases initial with
  | none => exact D.ite (D.matches_raise _ n) (D.bind (hdefine _) fun _ => D.same _)
  | some e =>
    dsimp only [Option.map_some]
    rw [Expr.line_reline]
    refine D.bind (hdefine _) fun _ => D.bind (D.checked heval e) fun v => ?_
    exact D.ite (D.bind (hdefine _) fun _ => D.same _) (D.matches_raise _ e.line)

/-! ### Calls -/

omit heval in
/-- What the body of a function ends in is what the call comes to. -/
theorem body {f : Function} {vs : List Value}
    (hflow : D.Matches p id (Machine.bodyFlow exec f vs)
      (Machine.bodyFlow exec' (f.reline D.line) vs)) (n : Nat) :
    D.Matches p id (Machine.body exec f vs n)
      (Machine.body exec' (f.reline D.line) vs (D.line n)) := by
  refine D.bind hflow fun flow => ?_
  cases flow with
  | next => exact D.same _
  | leaveCall v => exact D.same _
  | leaveLoop => exact D.matches_raise _ n
  | leaveConditional => exact D.matches_raise _ n

variable (hflow : ∀ f vs, D.Matches p id (Machine.bodyFlow exec f vs)
  (Machine.bodyFlow exec' (f.reline D.line) vs))

include hflow

theorem call (name : String) (es : List Expr) (n : Nat) :
    D.Matches p id (Machine.call eval exec name es n)
      (Machine.call eval' exec' name (es.map (Expr.reline D.line)) (D.line n)) := by
  refine D.matches_bind (D.matches_function? p name) fun o => ?_
  cases o with
  | none => exact D.same _
  | some f =>
    have hparams : (f.reline D.line).params = f.params.map (Param.reline D.line) := by
      cases f
      rfl
    dsimp only [Option.map_some]
    rw [hparams, List.length_map, List.length_map]
    refine D.ite (D.bind (D.arguments heval f.params es) fun r => ?_) (D.same _)
    cases r with
    | error fault => exact D.same _
    | ok vs => exact D.body (hflow f vs) n

theorem expression (e : Expr) :
    D.Matches p id (Machine.expression eval exec e)
      (Machine.expression eval' exec' (e.reline D.line)) := by
  cases e with
  | literal v n => exact D.same _
  | name x n => exact D.matches_get p x
  | group e n => exact heval e
  | call f es n =>
    rw [Expr.reline, Expr.relineAll_eq_map]
    exact D.call heval hflow f es n
  | cast t e n => exact D.bind (heval e) fun _ => D.same _
  | unary op e n => exact D.bind (heval e) fun _ => D.same _
  | binary op l r n => exact D.bind (heval l) fun _ => D.bind (heval r) fun _ => D.same _
  | assign op x e n => exact D.assignment heval op x e

end Constructs

end Correspondence

/-! ## Statements -/

namespace Simulation

variable {M N : Type → Type} [Effects M] [Effects N] (D : Simulation M N)

section Constructs

variable {eval : Expr → M Value} {eval' : Expr → N Value} {exec : Statement → M Flow}
  {exec' : Statement → N Flow}
  (heval : ∀ p e, D.Matches p id (eval e) (eval' (e.reline D.line)))
  (hexec : ∀ p s, D.Matches p id (exec s) (exec' (s.reline D.line)))

/-! ### Functions -/

theorem defineParams (p : D.Place) (ps : List Param) (vs : List Value) :
    D.Matches p id (Machine.defineParams ps vs)
      (Machine.defineParams (ps.map (Param.reline D.line)) vs) := by
  induction ps generalizing vs with
  | nil => exact D.same _
  | cons q ps ih =>
    cases vs with
    | nil => exact D.same _
    | cons v vs => exact D.bind (D.matches_pass p q v) fun _ => ih vs

include hexec in
theorem sequence (p : D.Place) (ss : List Statement) :
    D.Matches p id (Machine.sequence exec ss)
      (Machine.sequence exec' (Statement.relineAll D.line ss)) := by
  induction ss with
  | nil => exact D.same _
  | cons s ss ih =>
    refine D.bind (hexec p s) fun flow => ?_
    cases flow with
    | next => exact ih
    | _ => exact D.same _

include hexec in
theorem bodyFlow (p : D.Place) (f : Function) (vs : List Value) :
    D.Matches p id (Machine.bodyFlow exec f vs) (Machine.bodyFlow exec' (f.reline D.line) vs) := by
  rcases f with ⟨name, result, params, ⟨statements, bodyLine⟩, funcLine⟩
  refine D.matches_inCall result (D.matches_inScope .call ?_)
  exact D.bind (D.defineParams p params vs) fun _ => D.sequence hexec p statements

include heval

/-! ### Declarations and simple statements -/

theorem declare (p : D.Place) (d : VarDecl) :
    D.Matches p id (Machine.declare eval d) (Machine.declare eval' (d.reline D.line)) :=
  D.toCorrespondence.declare (heval p) d (D.matches_define p d.name)

omit heval in
theorem declareFunction (p : D.Place) (f : Function) :
    D.Matches p id (Machine.declareFunction f) (Machine.declareFunction (f.reline D.line)) := by
  have hname : (f.reline D.line).name = f.name ∧ (f.reline D.line).line = D.line f.line := by
    cases f
    exact ⟨rfl, rfl⟩
  unfold Machine.declareFunction
  rw [hname.1, hname.2]
  exact D.bind (D.matches_isFunctionDefined p f.name) fun _ =>
    D.ite (D.matches_raise _ f.line) (D.bind (D.matches_defineFunction p f) fun _ => D.same _)

theorem printAll (p : D.Place) (first : Expr) (all : List Expr) (n : Nat) (es : List Expr) :
    D.Matches (D.under (.print first all n) p) id (Machine.printAll eval n es)
      (Machine.printAll eval' (D.line n) (es.map (Expr.reline D.line))) := by
  induction es with
  | nil => exact D.matches_printText p first all n "\n"
  | cons e es ih =>
    refine D.bind (D.checked (heval _) e) fun v => ?_
    exact D.bind (D.matches_printText p first all n v.text) fun _ => ih

theorem answer (p : D.Place) (value : Option Expr) (n : Nat) :
    D.Matches p id (Machine.answer eval value n)
      (Machine.answer eval' (value.map (Expr.reline D.line)) (D.line n)) := by
  refine D.bind (D.matches_promise p) fun o => ?_
  cases o with
  | none => exact D.matches_raise _ n
  | some result =>
    cases value with
    | none => exact D.ite (D.same _) (D.matches_raise _ n)
    | some e =>
      refine D.ite (D.matches_raise _ n) (D.bind (D.checked (heval p) e) fun v => ?_)
      exact D.ite (D.same _) (D.matches_raise _ n)

omit heval in
theorem leave (p : D.Place) (kind : Exit) (n : Nat) :
    D.Matches p id (Machine.leave kind n) (Machine.leave kind (D.line n)) := by
  exact D.bind (D.matches_within p kind) fun _ => D.ite (D.same _) (D.matches_raise _ n)

/-! ### Blocks, conditionals and loops -/

omit heval in
include hexec in
theorem block (p : D.Place) (kind : ScopeKind) (b : Block) :
    D.Matches p id (Machine.block exec kind b) (Machine.block exec' kind (b.reline D.line)) := by
  rcases b with ⟨statements, n⟩
  exact D.matches_inScope kind (D.sequence hexec p statements)

omit heval in
include hexec in
theorem branch (p : D.Place) (b : Block) :
    D.Matches p id (Machine.branch exec b) (Machine.branch exec' (b.reline D.line)) := by
  refine D.bind (D.block hexec p .conditional b) fun flow => ?_
  cases flow <;> exact D.same _

include hexec in
theorem branches (p : D.Place) (bs : Branches) :
    D.Matches p id (Machine.branches eval exec bs)
      (Machine.branches eval' exec' (bs.reline D.line)) := by
  cases bs with
  | done => exact D.same _
  | elif c b rest n =>
    have ih := branches p rest
    exact D.bind (D.condition (heval p) c) fun _ => D.ite (D.branch hexec p b) ih
  | otherwise b n => exact D.branch hexec p b

include hexec in
theorem repeated (p : D.Place) (c : Expr) (b : Block) {step : M Unit} {step' : N Unit}
    (hstep : D.Matches p id step step') (n : Nat) :
    D.Matches p id (Machine.repeated eval exec c b step n)
      (Machine.repeated eval' exec' (c.reline D.line) (b.reline D.line) step' n) := by
  induction n with
  | zero => exact D.matches_exhausted
  | succ n ih =>
    refine D.bind (D.condition (heval p) c) fun taken => D.ite ?_ (D.same _)
    refine D.bind (D.block hexec p .loop b) fun flow => ?_
    cases flow with
    | next => exact D.bind hstep fun _ => ih
    | _ => exact D.same _

include hexec in
theorem counted (p : D.Place) (d : VarDecl) (c step : Expr) (b : Block) (n : Nat) :
    D.Matches p id (Machine.counted eval exec d c step b n)
      (Machine.counted eval' exec' (d.reline D.line) (c.reline D.line) (step.reline D.line)
        (b.reline D.line) n) := by
  refine D.matches_inScope .loop (D.bind (D.declare heval p d) fun _ => ?_)
  exact D.repeated heval hexec p c b (D.bind (D.checked (heval p) step) fun _ => D.same _) n

/-! ### Statements and programs -/

include hexec in
theorem statement (p : D.Place) (n : Nat) (s : Statement) :
    D.Matches (D.under s p) id (Machine.statement eval exec n s)
      (Machine.statement eval' exec' n (s.reline D.line)) := by
  have hnext {α : Type} {q : D.Place} {x : M α} {y : N α} (hx : D.Matches q id x y) :
      D.Matches q id (x >>= fun _ => pure Flow.next) (y >>= fun _ => pure Flow.next) :=
    D.bind hx fun _ => D.same _
  cases s with
  | var d => exact hnext (D.declare heval _ d)
  | func f => exact hnext (D.declareFunction _ f)
  | expr e n => exact hnext (D.checked (heval _) e)
  | print e es n => exact hnext (D.printAll heval p e es n (e :: es))
  | block b => exact D.block hexec _ .plain b
  | cond c b rest n =>
    exact D.bind (D.condition (heval _) c) fun _ =>
      D.ite (D.branch hexec _ b) (D.branches heval hexec _ rest)
  | loop c b _ => exact D.repeated heval hexec _ c b (D.same _) n
  | count d c step b _ => exact D.counted heval hexec _ d c step b n
  | return_ value n => exact D.answer heval _ value n
  | exit kind n => exact D.leave _ kind n

omit heval in
include hexec in
theorem each (p : D.Place) (ss : List Statement) :
    D.Matches p id (Machine.each exec ss) (Machine.each exec' (ss.map (Statement.reline D.line))) := by
  induction ss with
  | nil => exact D.same _
  | cons s ss ih => exact D.bind (hexec p s) fun _ => ih

end Constructs

/-! ## All expressions and statements -/

/-- Expressions and statements match in any time, if the first way to carry them out is the usual one but for the
place that the parts of a statement begin at. -/
theorem evaluate_execute {M : Type → Type} [Effects M] (D : Simulation M Run)
    (eval : Nat → Expr → M Value) (exec : Nat → Statement → M Flow)
    (heval_zero : ∀ e, eval 0 e = exhausted) (hexec_zero : ∀ s, exec 0 s = exhausted)
    (heval_succ : ∀ n e, eval (n + 1) e = Machine.expression (eval n) (exec n) e)
    (hexec_succ : ∀ n p s y,
      D.Matches (D.under s p) id (Machine.statement (eval n) (exec n) n s) y →
      D.Matches p id (exec (n + 1) s) y)
    (n : Nat) :
    (∀ p e, D.Matches p id (eval n e) (evaluate n (e.reline D.line))) ∧
      ∀ p s, D.Matches p id (exec n s) (execute n (s.reline D.line)) := by
  -- On the time: calls execute statements, and statements evaluate expressions, in less of it.
  induction n with
  | zero =>
    refine ⟨fun p e => ?_, fun p s => ?_⟩
    · rw [heval_zero]
      exact D.matches_exhausted
    · rw [hexec_zero]
      exact D.matches_exhausted
  | succ n ih =>
    refine ⟨fun p e => ?_, fun p s => hexec_succ n p s _ (D.statement ih.1 ih.2 p n s)⟩
    rw [heval_succ]
    exact D.expression (ih.1 p) (D.bodyFlow ih.2 p) e

end Simulation

end Scriptling
