import Scriptling.Proofs.Machine.Calls
import Scriptling.Proofs.Syntax.Places
import Scriptling.Proofs.Value.Faults

/-!
# Scriptling.Proofs.Machine.Discipline -- what constructs hand on from their parts

Many facts about running code have one proof: they hold of each thing that a computation can do, and
going on with a result preserves them. A `Discipline` is such a fact. It says of a computation where it
may begin, of its result what is to be known of it, and which faults there can be, in place of a value and
raised; its laws are about single steps alone. For each construct of the language there is one lemma: a
discipline that the parts of the construct keep is kept by the construct.

* `Discipline` -- the laws.
* `Discipline.expression`, `Discipline.statement`, `Discipline.program` -- the constructs.
* `Discipline.evaluate_execute` -- expressions and statements in any time.
-/

set_option autoImplicit false

namespace Scriptling

open Effects Machine

/-- Nothing is said of a result. -/
abbrev Anything {α : Type} : α → Prop := fun _ => True

/-- A fact about computations that follows from what they do step by step. `Holds p R x` says that the
computation `x` keeps the discipline when it begins at the place `p`, and that `R` holds of its result. -/
structure Discipline (M : Type → Type) [Effects M] where
  /-- What the discipline distinguishes of the scopes and calls around. -/
  Place : Type
  enter : ScopeKind → Place → Place
  start : ValueType → Place → Place
  /-- The functions that can be in scope. -/
  Known : Function → Prop
  /-- The faults that can come in place of values. -/
  Faulty : Fault → Prop
  /-- The faults that can be raised at a place. -/
  Raises : Place → Fault → Prop
  /-- How a statement at a place can end. -/
  Exits : Place → Flow → Prop
  Holds : Place → {α : Type} → (α → Prop) → M α → Prop
  holds_pure : ∀ {p : Place} {α : Type} {R : α → Prop} {a : α}, R a → Holds p R (pure a : M α)
  holds_bind : ∀ {p : Place} {α β : Type} {S : β → Prop} {R : α → Prop} {x : M β} {f : β → M α},
    Holds p S x → (∀ b, S b → Holds p R (f b)) → Holds p R (x >>= f)
  holds_mono : ∀ {p : Place} {α : Type} {S R : α → Prop} {x : M α},
    Holds p S x → (∀ a, S a → R a) → Holds p R x
  holds_exhausted : ∀ {p : Place} {α : Type} {R : α → Prop}, Holds p R (exhausted : M α)
  holds_raise : ∀ {p : Place} {α : Type} {R : α → Prop} {f : Fault} (line : Nat),
    Raises p f → Holds p R (raise f line : M α)
  holds_binding? : ∀ (p : Place) (x : String),
    Holds p Anything (read fun m => m.scopes.binding? x : M _)
  holds_get : ∀ (p : Place) (x : String),
    Holds p (Value.FaultIs Faulty) (read fun m => m.scopes.get x : M _)
  holds_function? : ∀ (p : Place) (x : String),
    Holds p (fun o => ∀ f, o = some f → Known f) (read fun m => m.scopes.function? x : M _)
  holds_isFunctionDefined : ∀ (p : Place) (x : String),
    Holds p Anything (read fun m => m.scopes.isFunctionDefined x : M _)
  /-- Where a call promises a type, a statement can leave it with a value of the type, and elsewhere it can
  be raised that there is no call. -/
  holds_promise : ∀ p : Place,
    Holds p (fun o => (o = none → Raises p .returnOutsideFunction) ∧
        ∀ t, o = some t → ∀ v, v.type? = some t → Exits p (.leaveCall v))
      (read fun m => m.results.head? : M _)
  /-- Where an exit finds what it leaves, a statement can end in it. -/
  holds_within : ∀ (p : Place) (kind : Exit),
    Holds p (fun placed => placed = true → Exits p (exitFlow kind))
      (read fun m => m.scopes.within (exitScope kind) : M _)
  holds_load : ∀ (p : Place) (file : String), Holds p Anything (act (.load file) : M _)
  holds_define : ∀ (p : Place) (x : String) {b : Binding},
    b.value.FaultIs Faulty → Holds p Anything (act (.define x b) : M _)
  holds_pass : ∀ (p : Place) (q : Param) {v : Value},
    v.FaultIs Faulty → Holds p Anything (act (.pass q v) : M _)
  holds_update : ∀ (p : Place) (x : String) {v : Value},
    v.FaultIs Faulty → Holds p Anything (act (.update x v) : M _)
  holds_write : ∀ (p : Place) (text : String), Holds p Anything (act (.write text) : M _)
  holds_defineFunction : ∀ (p : Place) {f : Function},
    Known f → Holds p Anything (act (.defineFunction f) : M _)
  holds_inScope : ∀ {p : Place} {α : Type} {R : α → Prop} {x : M α} (kind : ScopeKind),
    Holds (enter kind p) R x → Holds p R (inScope kind x)
  holds_inCall : ∀ {p : Place} {α : Type} {R : α → Prop} {x : M α} (result : ValueType),
    Holds (start result p) R x → Holds p R (inCall result x)
  /-- Only a `return` can find that there is no call, and it raises that. -/
  faulty_of_ne : ∀ {f : Fault}, f ≠ .returnOutsideFunction → Faulty f
  raises_of_faulty : ∀ {p : Place} {f : Fault}, Faulty f → Raises p f
  exits_next : ∀ p : Place, Exits p .next
  exits_leaveCall : ∀ {p : Place} {v : Value}, Exits p (.leaveCall v) → v.FaultIs Faulty
  exits_plain : ∀ {p : Place} {flow : Flow}, Exits (enter .plain p) flow → Exits p flow
  exits_conditional : ∀ {p : Place} {flow : Flow},
    Exits (enter .conditional p) flow → flow ≠ .leaveConditional → Exits p flow
  exits_loop : ∀ {p : Place} {flow : Flow},
    Exits (enter .loop p) flow → flow ≠ .leaveLoop → Exits p flow

namespace Discipline

variable {M : Type → Type} [Effects M] (D : Discipline M) {p : D.Place}

/-- The place of the statements in the bodies of a statement. A counting loop opens one scope for its
variable and, in it, one for each round. -/
def inside (p : D.Place) : Statement → D.Place
  | .block _ => D.enter .plain p
  | .cond _ _ _ _ => D.enter .conditional p
  | .loop _ _ _ => D.enter .loop p
  | .count _ _ _ _ _ => D.enter .loop (D.enter .loop p)
  | _ => p

/-- The place of the statements in the body of a function. -/
def body (f : Function) (p : D.Place) : D.Place := D.enter .call (D.start f.result p)

/-- What an expression can come to. -/
abbrev Sound (v : Value) : Prop := v.FaultIs D.Faulty

theorem sound_fault {f : Fault} (hf : f ≠ .returnOutsideFunction) : D.Sound (.fault f) :=
  Value.faultIs_fault (D.faulty_of_ne hf)

/-- The faults of operators and casts can come in place of values. -/
theorem faulty_of_operators : ∀ f ∈ Fault.ofOperators, D.Faulty f := by
  have hne : ∀ f ∈ Fault.ofOperators, f ≠ .returnOutsideFunction := by decide
  exact fun f hf => D.faulty_of_ne (hne f hf)

/-- Every fault but that there is no call can be raised at any place. -/
theorem holds_raise_of_ne {α : Type} {R : α → Prop} {f : Fault} (hf : f ≠ .returnOutsideFunction)
    (p : D.Place) (line : Nat) : D.Holds p R (raise f line : M α) :=
  D.holds_raise line (D.raises_of_faulty (D.faulty_of_ne hf))

section Constructs

variable {eval : Expr → M Value} {exec : Statement → M Flow}

/-! ## Expressions -/

section Expressions

variable (heval : ∀ p e, D.Holds p D.Sound (eval e))

include heval

/-- The fault in place of a value can be raised. -/
theorem checked (p : D.Place) (e : Expr) : D.Holds p Anything (Machine.checked eval e) := by
  refine D.holds_bind (heval p e) fun v hv => ?_
  cases v with
  | fault f => exact D.holds_raise e.line (D.raises_of_faulty (hv f rfl))
  | _ => exact D.holds_pure trivial

omit heval in
theorem store (p : D.Place) (x : String) {v : Value} (hv : D.Sound v) :
    D.Holds p D.Sound (Machine.store x v : M Value) := by
  refine D.holds_bind (D.holds_update p x hv) fun stored _ => ?_
  split
  · exact D.holds_pure hv
  · exact D.holds_pure (D.sound_fault (by decide))

omit heval in
theorem sound_combine (op : AssignOperator) {current v : Value} (hcurrent : D.Sound current)
    (hv : D.Sound v) : D.Sound (combine op current v) := by
  unfold combine
  split
  · exact Value.faultIs_binary D.faulty_of_operators hcurrent hv _
  · exact hv

/-- An assignment comes to the value that it stores, or to a fault of a part of it or of its own. -/
theorem assignment (p : D.Place) (op : AssignOperator) (x : String) (e : Expr) :
    D.Holds p D.Sound (Machine.assignment eval op x e) := by
  refine D.holds_bind (D.holds_binding? p x) fun o _ => ?_
  cases o with
  | none => exact D.holds_pure (D.sound_fault (by decide))
  | some b =>
    dsimp only
    split
    · refine D.holds_bind (heval p e) fun v hv => ?_
      split
      · exact D.holds_pure hv
      · refine D.holds_bind (D.holds_get p x) fun current hcurrent => ?_
        have hresult := D.sound_combine op hcurrent hv
        split
        · exact D.holds_pure hresult
        · split
          · exact D.store p x hresult
          · exact D.holds_pure (D.sound_fault (by decide))
    · exact D.holds_pure (D.sound_fault (by decide))

/-- What arguments can come to. -/
def SoundArguments : Except Fault (List Value) → Prop
  | .error f => D.Faulty f
  | .ok vs => ∀ v ∈ vs, D.Sound v

/-- Arguments come to sound values, or to the fault of the first one that fails. -/
theorem arguments (p : D.Place) (ps : List Param) (es : List Expr) :
    D.Holds p D.SoundArguments (Machine.arguments eval ps es) := by
  induction ps generalizing es with
  | nil => exact D.holds_pure (List.forall_mem_nil _)
  | cons q ps ih =>
    cases es with
    | nil => exact D.holds_pure (List.forall_mem_nil _)
    | cons e es =>
      refine D.holds_bind (heval p e) fun v hv => ?_
      cases v with
      | fault f => exact D.holds_pure (hv f rfl)
      | _ =>
        dsimp only
        split
        · refine D.holds_bind (ih es) fun r hr => ?_
          cases r with
          | error f => exact D.holds_pure hr
          | ok vs => exact D.holds_pure (List.forall_mem_cons.2 ⟨hv, hr⟩)
        · exact D.holds_pure (D.faulty_of_ne (by decide))

end Expressions

/-! ## Calls -/

theorem defineParams (p : D.Place) (ps : List Param) {vs : List Value}
    (hvs : ∀ v ∈ vs, D.Sound v) :
    D.Holds p Anything (Machine.defineParams ps vs : M Unit) := by
  induction ps generalizing vs with
  | nil => exact D.holds_pure trivial
  | cons q ps ih =>
    cases vs with
    | nil => exact D.holds_pure trivial
    | cons v vs =>
      rw [List.forall_mem_cons] at hvs
      exact D.holds_bind (D.holds_pass p q hvs.1) fun _ _ => ih hvs.2

/-- Statements in a row end as the first of them that does not lead on to the next. -/
theorem sequence {ss : List Statement} (hss : ∀ s ∈ ss, D.Holds p (D.Exits p) (exec s)) :
    D.Holds p (D.Exits p) (Machine.sequence exec ss) := by
  induction ss with
  | nil => exact D.holds_pure (D.exits_next p)
  | cons s ss ih =>
    rw [List.forall_mem_cons] at hss
    refine D.holds_bind hss.1 fun flow hflow => ?_
    cases flow with
    | next => exact ih hss.2
    | _ => exact D.holds_pure hflow

/-- The body of a function ends as statements at its own place can end. -/
theorem bodyFlow {f : Function} {vs : List Value} (hvs : ∀ v ∈ vs, D.Sound v)
    (hf : ∀ s ∈ f.body.statements, D.Holds (D.body f p) (D.Exits (D.body f p)) (exec s)) :
    D.Holds p (D.Exits (D.body f p)) (Machine.bodyFlow exec f vs) := by
  refine D.holds_inCall f.result (D.holds_inScope .call ?_)
  exact D.holds_bind (D.defineParams _ f.params hvs) fun _ _ => D.sequence hf

/-- A call has the value that its body is left with, or `void`. Any other exit from the body is raised. -/
theorem run_body {f : Function} {vs : List Value} (hvs : ∀ v ∈ vs, D.Sound v) (line : Nat)
    (hf : ∀ s ∈ f.body.statements, D.Holds (D.body f p) (D.Exits (D.body f p)) (exec s)) :
    D.Holds p D.Sound (Machine.body exec f vs line) := by
  refine D.holds_bind (D.bodyFlow hvs hf) fun flow hflow => ?_
  cases flow with
  | next => exact D.holds_pure (Value.faultIs_of_proper rfl)
  | leaveCall v => exact D.holds_pure (D.exits_leaveCall hflow)
  | _ => exact D.holds_raise_of_ne (by decide) p line

/-- A call keeps the discipline if all bodies of known functions do. -/
theorem callWithin (heval : ∀ p e, D.Holds p D.Sound (eval e)) {exec : Function → Statement → M Flow}
    (hexec : ∀ f, D.Known f → ∀ s ∈ f.body.statements,
      D.Holds (D.body f p) (D.Exits (D.body f p)) (exec f s))
    (name : String) (es : List Expr) (line : Nat) :
    D.Holds p D.Sound (Machine.callWithin eval exec name es line) := by
  refine D.holds_bind (D.holds_function? p name) fun o ho => ?_
  cases o with
  | none => exact D.holds_pure (D.sound_fault (by decide))
  | some f =>
    dsimp only
    split
    · refine D.holds_bind (D.arguments heval p f.params es) fun r hr => ?_
      cases r with
      | error fault => exact D.holds_pure (Value.faultIs_fault hr)
      | ok vs => exact D.run_body hr line (hexec f (ho f rfl))
    · exact D.holds_pure (D.sound_fault (by decide))

omit exec in
theorem sound_literal (v : Literal) : D.Sound (literal v) := by
  cases v <;> exact Value.faultIs_of_proper rfl

theorem expressionWithin (heval : ∀ p e, D.Holds p D.Sound (eval e))
    {exec : Function → Statement → M Flow}
    (hexec : ∀ f, D.Known f → ∀ s ∈ f.body.statements,
      D.Holds (D.body f p) (D.Exits (D.body f p)) (exec f s))
    (e : Expr) : D.Holds p D.Sound (Machine.expressionWithin eval exec e) := by
  cases e with
  | literal v line => exact D.holds_pure (D.sound_literal v)
  | name x line => exact D.holds_get p x
  | group e line => exact heval p e
  | call f es line => exact D.callWithin heval hexec f es line
  | cast t e line =>
    exact D.holds_bind (heval p e) fun v hv =>
      D.holds_pure (Value.faultIs_convert D.faulty_of_operators hv t)
  | unary op e line =>
    exact D.holds_bind (heval p e) fun v hv =>
      D.holds_pure (Value.faultIs_unary D.faulty_of_operators hv op)
  | binary op l r line =>
    exact D.holds_bind (heval p l) fun a ha => D.holds_bind (heval p r) fun b hb =>
      D.holds_pure (Value.faultIs_binary D.faulty_of_operators ha hb op)
  | assign op x e line => exact D.assignment heval p op x e

theorem expression (heval : ∀ p e, D.Holds p D.Sound (eval e))
    (hexec : ∀ f, D.Known f → ∀ s ∈ f.body.statements,
      D.Holds (D.body f p) (D.Exits (D.body f p)) (exec s))
    (e : Expr) : D.Holds p D.Sound (Machine.expression eval exec e) := by
  rw [← expressionWithin_const]
  exact D.expressionWithin heval hexec e

/-! ## Declarations and simple statements -/

section Simple

variable (heval : ∀ p e, D.Holds p D.Sound (eval e))

include heval

/-- A variable is declared with a sound value. -/
theorem declare (p : D.Place) (d : VarDecl) : D.Holds p Anything (Machine.declare eval d) := by
  have hvoid : D.Sound .void := Value.faultIs_of_proper rfl
  unfold Machine.declare
  cases d.initial with
  | none =>
    dsimp only
    split
    · exact D.holds_raise_of_ne (by decide) p _
    · exact D.holds_bind (D.holds_define p _ hvoid) fun _ _ => D.holds_pure trivial
  | some e =>
    refine D.holds_bind (D.holds_define p _ hvoid) fun _ _ => ?_
    refine D.holds_bind (D.checked heval p e) fun v _ => ?_
    split
    · rename_i htype
      have hv : D.Sound v := Value.faultIs_of_proper (Value.proper_of_type htype)
      exact D.holds_bind (D.holds_define p _ hv) fun _ _ => D.holds_pure trivial
    · exact D.holds_raise_of_ne (by decide) p _

omit heval in
theorem declareFunction (p : D.Place) {f : Function} (hf : D.Known f) :
    D.Holds p Anything (Machine.declareFunction f : M Unit) := by
  refine D.holds_bind (D.holds_isFunctionDefined p f.name) fun defined _ => ?_
  split
  · exact D.holds_raise_of_ne (by decide) p _
  · exact D.holds_bind (D.holds_defineFunction p hf) fun _ _ => D.holds_pure trivial

omit heval in
theorem printText (p : D.Place) (text : String) (line : Nat) :
    D.Holds p Anything (Machine.printText text line : M Unit) := by
  refine D.holds_bind (D.holds_write p text) fun complete _ => ?_
  split
  · exact D.holds_pure trivial
  · exact D.holds_raise_of_ne (by decide) p line

theorem printAll (p : D.Place) (line : Nat) (es : List Expr) :
    D.Holds p Anything (Machine.printAll eval line es) := by
  induction es with
  | nil => exact D.printText p "\n" line
  | cons e es ih =>
    refine D.holds_bind (D.checked heval p e) fun v _ => ?_
    exact D.holds_bind (D.printText p v.text line) fun _ _ => ih

/-- A `return` leaves the call with a value of the type that the call promises, or raises a fault. -/
theorem answer (p : D.Place) (value : Option Expr) (line : Nat) :
    D.Holds p (D.Exits p) (Machine.answer eval value line) := by
  refine D.holds_bind (D.holds_promise p) fun o ho => ?_
  cases o with
  | none => exact D.holds_raise line (ho.1 rfl)
  | some result =>
    cases value with
    | none =>
      dsimp only
      split
      · -- `void` is of type `void`.
        rename_i hvoid
        exact D.holds_pure (ho.2 result rfl .void (hvoid ▸ rfl))
      · exact D.holds_raise_of_ne (by decide) p line
    | some e =>
      dsimp only
      split
      · exact D.holds_raise_of_ne (by decide) p line
      · refine D.holds_bind (D.checked heval p e) fun v _ => ?_
        split
        · rename_i htype
          exact D.holds_pure (ho.2 result rfl v htype)
        · exact D.holds_raise_of_ne (by decide) p line

omit heval in
/-- An exit ends the statement if what it leaves is around it, and is raised if not. -/
theorem leave (p : D.Place) (kind : Exit) (line : Nat) :
    D.Holds p (D.Exits p) (Machine.leave kind line : M Flow) := by
  refine D.holds_bind (D.holds_within p kind) fun placed hplaced => ?_
  split
  · rename_i h
    exact D.holds_pure (hplaced h)
  · exact D.holds_raise_of_ne (by decide) p line

theorem condition (p : D.Place) (e : Expr) : D.Holds p Anything (Machine.condition eval e) :=
  D.holds_bind (D.checked heval p e) fun _ _ => D.holds_pure trivial

end Simple

/-! ## Blocks, conditionals and loops -/

theorem block {kind : ScopeKind} {b : Block}
    (hb : ∀ s ∈ b.statements, D.Holds (D.enter kind p) (D.Exits (D.enter kind p)) (exec s)) :
    D.Holds p (D.Exits (D.enter kind p)) (Machine.block exec kind b) :=
  D.holds_inScope kind (D.sequence hb)

/-- Leaving a conditional ends with its branch. -/
theorem branch {b : Block}
    (hb : ∀ s ∈ b.statements,
      D.Holds (D.enter .conditional p) (D.Exits (D.enter .conditional p)) (exec s)) :
    D.Holds p (fun flow => D.Exits p flow ∧ flow ≠ .leaveConditional) (Machine.branch exec b) := by
  refine D.holds_bind (D.block hb) fun flow hflow => ?_
  cases flow with
  | leaveConditional => exact D.holds_pure ⟨D.exits_next p, Flow.noConfusion⟩
  | _ => exact D.holds_pure ⟨D.exits_conditional hflow Flow.noConfusion, Flow.noConfusion⟩

theorem branches (heval : ∀ p e, D.Holds p D.Sound (eval e)) {bs : Branches}
    (hbs : ∀ s ∈ bs.inner,
      D.Holds (D.enter .conditional p) (D.Exits (D.enter .conditional p)) (exec s)) :
    D.Holds p (fun flow => D.Exits p flow ∧ flow ≠ .leaveConditional)
      (Machine.branches eval exec bs) := by
  -- On the branches: the rest is looked at only where a condition has failed, at the same place.
  fun_induction Machine.branches eval exec bs with
  | case1 => exact D.holds_pure ⟨D.exits_next p, Flow.noConfusion⟩
  | case2 c b rest line ih =>
    rw [Branches.inner, List.forall_mem_append] at hbs
    refine D.holds_bind (D.condition heval p c) fun taken _ => ?_
    split
    · exact D.branch hbs.1
    · exact ih hbs.2
  | case3 b line => exact D.branch hbs

/-- Leaving a loop ends with the loop. -/
theorem repeated (heval : ∀ p e, D.Holds p D.Sound (eval e)) (c : Expr) {b : Block}
    (hb : ∀ s ∈ b.statements, D.Holds (D.enter .loop p) (D.Exits (D.enter .loop p)) (exec s))
    {step : M Unit} (hstep : D.Holds p Anything step) (n : Nat) :
    D.Holds p (fun flow => D.Exits p flow ∧ flow ≠ .leaveLoop)
      (Machine.repeated eval exec c b step n) := by
  -- On the bound of the rounds: every round ends at the place it began at.
  induction n with
  | zero => exact D.holds_exhausted
  | succ n ih =>
    refine D.holds_bind (D.condition heval p c) fun taken _ => ?_
    split
    · refine D.holds_bind (D.block hb) fun flow hflow => ?_
      cases flow with
      | next => exact D.holds_bind hstep fun _ _ => ih
      | leaveLoop => exact D.holds_pure ⟨D.exits_next p, Flow.noConfusion⟩
      | _ => exact D.holds_pure ⟨D.exits_loop hflow Flow.noConfusion, Flow.noConfusion⟩
    · exact D.holds_pure ⟨D.exits_next p, Flow.noConfusion⟩

/-- The variable of a counting loop and its rounds have scopes of their own, and leaving the loop ends with both. -/
theorem counted (heval : ∀ p e, D.Holds p D.Sound (eval e)) (d : VarDecl) (c step : Expr) {b : Block}
    (hb : ∀ s ∈ b.statements, D.Holds (D.enter .loop (D.enter .loop p))
      (D.Exits (D.enter .loop (D.enter .loop p))) (exec s)) (n : Nat) :
    D.Holds p (fun flow => D.Exits p flow ∧ flow ≠ .leaveLoop)
      (Machine.counted eval exec d c step b n) := by
  have hstep : D.Holds (D.enter .loop p) Anything (do let _ ← Machine.checked eval step) :=
    D.holds_bind (D.checked heval _ step) fun _ _ => D.holds_pure trivial
  have hloop := D.holds_inScope .loop
    (D.holds_bind (D.declare heval (D.enter .loop p) d) fun _ _ => D.repeated heval c hb hstep n)
  exact D.holds_mono hloop fun flow h => ⟨D.exits_loop h.1 h.2, h.2⟩

/-! ## Statements and programs -/

/-- A statement keeps the discipline if those in its bodies do, each at its place. -/
theorem statement (heval : ∀ p e, D.Holds p D.Sound (eval e)) (n : Nat) {s : Statement}
    (hknown : ∀ f, s = .func f → D.Known f)
    (hexec : ∀ t ∈ s.inner, D.Holds (D.inside p s) (D.Exits (D.inside p s)) (exec t)) :
    D.Holds p (D.Exits p) (Machine.statement eval exec n s) := by
  have hnext {α : Type} {x : M α} (hx : D.Holds p Anything x) :
      D.Holds p (D.Exits p) (x >>= fun _ => pure .next) :=
    D.holds_bind hx fun _ _ => D.holds_pure (D.exits_next p)
  cases s with
  | var d => exact hnext (D.declare heval p d)
  | func f => exact hnext (D.declareFunction p (hknown f rfl))
  | expr e line => exact hnext (D.checked heval p e)
  | print e es line => exact hnext (D.printAll heval p line (e :: es))
  | block b => exact D.holds_mono (D.block hexec) fun _ h => D.exits_plain h
  | cond c b rest line =>
    rw [Statement.inner, List.forall_mem_append] at hexec
    refine D.holds_bind (D.condition heval p c) fun taken _ => ?_
    split
    · exact D.holds_mono (D.branch hexec.1) fun _ h => h.1
    · exact D.holds_mono (D.branches heval hexec.2) fun _ h => h.1
  | loop c b line =>
    exact D.holds_mono (D.repeated heval c hexec (D.holds_pure trivial) n) fun _ h => h.1
  | count d c step b line =>
    exact D.holds_mono (D.counted heval d c step hexec n) fun _ h => h.1
  | return_ value line => exact D.answer heval p value line
  | exit kind line => exact D.leave p kind line

theorem each {ss : List Statement} (hss : ∀ s ∈ ss, D.Holds p Anything (exec s)) :
    D.Holds p Anything (Machine.each exec ss) := by
  induction ss with
  | nil => exact D.holds_pure trivial
  | cons s ss ih =>
    rw [List.forall_mem_cons] at hss
    exact D.holds_bind hss.1 fun _ _ => ih hss.2

theorem program {q : Program} (hq : ∀ s ∈ q.statements, D.Holds p Anything (exec s)) :
    D.Holds p Anything (Machine.program exec q) :=
  D.holds_bind (D.holds_load p q.file) fun _ _ => D.each hq

end Constructs

/-! ## All expressions and statements -/

/-- Where all functions can be in scope, expressions and statements keep the discipline in any time. -/
theorem evaluate_execute (D : Discipline Run) (hknown : ∀ f, D.Known f) (n : Nat) :
    (∀ p e, D.Holds p D.Sound (evaluate n e)) ∧ ∀ p s, D.Holds p (D.Exits p) (execute n s) := by
  -- On the time: calls execute statements, and statements evaluate expressions, in less of it.
  induction n with
  | zero => exact ⟨fun _ _ => D.holds_exhausted, fun _ _ => D.holds_exhausted⟩
  | succ n ih =>
    refine ⟨fun p e => ?_, fun p s => ?_⟩
    · exact D.expression ih.1 (fun f _ s _ => ih.2 (D.body f p) s) e
    · exact D.statement ih.1 n (fun f _ => hknown f) fun t _ => ih.2 (D.inside p s) t

end Discipline

end Scriptling
