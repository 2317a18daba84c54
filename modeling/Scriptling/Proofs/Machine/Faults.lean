import Scriptling.Proofs.Trace.Watched
import Scriptling.Proofs.Value.Types

/-!
# Scriptling.Proofs.Machine.Faults -- no fault is lost

A fault in place of a value is forwarded by everything that makes use of values, or raised by it. So what
comes to a proper end has met no fault on the way: a statement that ends in some flow, and an expression
that comes to a value which is no fault itself. The main result is `faults_end_runs`.

`FaultFree P C x` is the shape in which this passes through the constructs of the language: if `x` ends
with a result of which `C` holds, then no value on the way to it was a fault, and `P` holds of what went
before. So the facts run from the end of a computation back to its beginning: from an operator that came
to a value to both of its operands.
-/

set_option autoImplicit false

namespace Scriptling

namespace Watched

open Effects Machine

/-- Whenever the computation ends with a result of which `C` holds, `P` does, and no value on the way was a
fault. -/
def FaultFree {α : Type} (P : Prop) (C : α → Prop) (x : Watched α) : Prop :=
  ∀ m a m', (x m).1 = .done a m' → C a → P ∧ ∀ y ∈ (x m).2, y.value.isFault = false

/-- The value is no fault. -/
abbrev Proper (v : Value) : Prop := v.isFault = false

/-- Nothing is asked of a result. -/
abbrev Anyhow {α : Type} : α → Prop := fun _ => True

section Laws

variable {α β : Type} {P : Prop} {C : α → Prop} {D : β → Prop}

theorem faultFree_pure {a : α} (h : C a → P) : FaultFree P C (pure a) := by
  intro m b m' hb hC
  cases hb
  exact ⟨h hC, List.forall_mem_nil _⟩

/-- What raises a fault does not end with a result. -/
theorem faultFree_raise (f : Fault) (line : Nat) : FaultFree P C (raise f line : Watched α) := by
  intro m a m' h
  cases h

theorem faultFree_exhausted : FaultFree P C (exhausted : Watched α) := by
  intro m a m' h
  cases h

theorem faultFree_read (f : Machine → α) : FaultFree True C (read f) :=
  fun _ _ _ _ _ => ⟨trivial, List.forall_mem_nil _⟩

theorem faultFree_act (a : Action) : FaultFree True Anyhow (act a) :=
  fun _ _ _ _ _ => ⟨trivial, List.forall_mem_nil _⟩

/-- What has to hold of the first result is known from the end of the rest. -/
theorem FaultFree.bind {x : Watched β} {f : β → Watched α} (hx : FaultFree P D x)
    (hf : ∀ b, FaultFree (D b) C (f b)) : FaultFree P C (x >>= f) := by
  intro m a m' h hC
  have hbind : (x >>= f) m = Watched.bind x f m := rfl
  rw [hbind] at h ⊢
  unfold Watched.bind at h ⊢
  rcases hxm : x m with ⟨b | e | _, ys⟩
  · rw [hxm] at h
    obtain ⟨hD, hlater⟩ := hf b _ a m' h hC
    obtain ⟨hP, hbefore⟩ := hx m b _ (by rw [hxm]) hD
    rw [hxm] at hbefore
    exact ⟨hP, List.forall_mem_append.2 ⟨hbefore, hlater⟩⟩
  · rw [hxm] at h
    cases h
  · rw [hxm] at h
    cases h

theorem FaultFree.always {x : Watched α} (hx : FaultFree P C x) (a : Action) :
    FaultFree P C (always a x) := by
  intro m b m' h hC
  have hrun : Run.finally_ (fun m => (a.perform m).1) x.forget m = .done b m' := h
  unfold Run.finally_ forget at hrun
  rcases hxm : (x m).1 with c | e | _
  · rw [hxm] at hrun
    cases hrun
    exact hx m _ _ hxm hC
  · rw [hxm] at hrun
    cases hrun
  · rw [hxm] at hrun
    cases hrun

/-- What holds anyway need not be concluded. -/
theorem FaultFree.of_true {x : Watched α} (hx : FaultFree True C x) (hP : P) : FaultFree P C x :=
  fun m a m' h hC => ⟨hP, (hx m a m' h hC).2⟩

/-- What is known of an earlier result is kept beside what is known of a later one. -/
theorem FaultFree.and {x : Watched α} (hx : FaultFree True C x) :
    FaultFree P (fun a => P ∧ C a) x :=
  fun m a m' h hC => ⟨hC.1, (hx m a m' h hC.2).2⟩

theorem FaultFree.inScope {x : Watched α} (hx : FaultFree True C x) (kind : ScopeKind) :
    FaultFree True C (inScope kind x) :=
  (faultFree_act (.enter kind)).bind fun _ => hx.always .leave

theorem FaultFree.inCall {x : Watched α} (hx : FaultFree True C x) (result : ValueType) :
    FaultFree True C (inCall result x) :=
  (faultFree_act (.start result)).bind fun _ => hx.always .stop

/-- The value itself is the last of the list, and it is asked to be no fault. -/
theorem FaultFree.noting {x : Watched Value} (hx : FaultFree True Proper x) (e : Expr) :
    FaultFree True Proper (noting e x) := by
  intro m v m' h hv
  unfold Watched.noting at h ⊢
  rcases hxm : x m with ⟨w | e | _, ys⟩
  · rw [hxm] at h
    cases h
    have hbefore := (hx m v m' (by rw [hxm]) hv).2
    rw [hxm] at hbefore
    refine ⟨trivial, List.forall_mem_append.2 ⟨hbefore, ?_⟩⟩
    exact List.forall_mem_singleton.2 hv
  · rw [hxm] at h
    cases h
  · rw [hxm] at h
    cases h

end Laws

section Constructs

variable {eval : Expr → Watched Value} {exec : Statement → Watched Flow}
  (heval : ∀ e, FaultFree True Proper (eval e)) (hexec : ∀ s, FaultFree True Anyhow (exec s))

/-! ## Expressions -/

include heval

/-- A value that is used is no fault: a fault is raised instead. -/
theorem faultFree_checked (e : Expr) : FaultFree True Anyhow (checked eval e) := by
  refine (heval e).bind fun v => ?_
  cases v with
  | fault f => exact faultFree_raise f e.line
  | _ => exact faultFree_pure fun _ => rfl

theorem faultFree_assignment (op : AssignOperator) (x : String) (e : Expr) :
    FaultFree True Proper (assignment eval op x e) := by
  refine (faultFree_read (C := Anyhow) _).bind fun o => ?_
  cases o with
  | none => exact faultFree_pure fun _ => trivial
  | some b =>
    dsimp only
    split
    · refine (heval e).bind fun v => ?_
      split
      · exact faultFree_pure id
      · rename_i hv
        have hproper : Proper v := Bool.eq_false_iff.2 hv
        -- From here on the value is known to be proper, whatever becomes of it.
        refine FaultFree.of_true ((faultFree_read (C := Anyhow) _).bind fun current => ?_) hproper
        split
        · exact faultFree_pure fun _ => trivial
        · split
          · refine (faultFree_act _).bind fun stored => ?_
            split <;> exact faultFree_pure fun _ => trivial
          · exact faultFree_pure fun _ => trivial
    · exact faultFree_pure fun _ => trivial

/-- Arguments are passed on only if none of them is a fault. -/
theorem faultFree_arguments (ps : List Param) (es : List Expr) :
    FaultFree True (fun r => ∃ vs, r = .ok vs) (arguments eval ps es) := by
  induction ps generalizing es with
  | nil => exact faultFree_pure fun _ => trivial
  | cons p ps ih =>
    cases es with
    | nil => exact faultFree_pure fun _ => trivial
    | cons e es =>
      refine (heval e).bind fun v => ?_
      cases v with
      | fault f => exact faultFree_pure fun ⟨vs, hvs⟩ => by cases hvs
      | _ =>
        dsimp only
        split
        · refine FaultFree.of_true ((ih es).bind fun r => ?_) rfl
          cases r with
          | ok vs => exact faultFree_pure fun _ => ⟨vs, rfl⟩
          | error f => exact faultFree_pure fun ⟨vs, hvs⟩ => by cases hvs
        · exact faultFree_pure fun ⟨vs, hvs⟩ => by cases hvs

omit heval

theorem faultFree_defineParams (ps : List Param) (vs : List Value) :
    FaultFree True Anyhow (defineParams ps vs : Watched Unit) := by
  induction ps generalizing vs with
  | nil => exact faultFree_pure fun _ => trivial
  | cons p ps ih =>
    cases vs with
    | nil => exact faultFree_pure fun _ => trivial
    | cons v vs => exact (faultFree_act _).bind fun _ => ih vs

include hexec

theorem faultFree_sequence (ss : List Statement) :
    FaultFree True Anyhow (Machine.sequence exec ss) := by
  induction ss with
  | nil => exact faultFree_pure fun _ => trivial
  | cons s ss ih =>
    refine (hexec s).bind fun flow => ?_
    cases flow with
    | next => exact ih
    | _ => exact faultFree_pure fun _ => trivial

theorem faultFree_body (f : Function) (vs : List Value) (line : Nat) :
    FaultFree True Anyhow (body exec f vs line) := by
  have hparams := (faultFree_defineParams f.params vs).bind fun _ =>
    faultFree_sequence hexec f.body.statements
  refine ((hparams.inScope .call).inCall f.result).bind fun flow => ?_
  cases flow with
  | next => exact faultFree_pure fun _ => trivial
  | leaveCall v => exact faultFree_pure fun _ => trivial
  | _ => exact faultFree_raise _ _

include heval

theorem faultFree_call (name : String) (es : List Expr) (line : Nat) :
    FaultFree True Proper (call eval exec name es line) := by
  refine (faultFree_read (C := Anyhow) _).bind fun o => ?_
  cases o with
  | none => exact faultFree_pure fun _ => trivial
  | some f =>
    dsimp only
    split
    · refine (faultFree_arguments heval f.params es).bind fun r => ?_
      cases r with
      | error fault => exact faultFree_pure fun h => by cases h
      | ok vs =>
        intro m v m' h _
        exact ((faultFree_body hexec f vs line).of_true ⟨vs, rfl⟩) m v m' h trivial
    · exact faultFree_pure fun _ => trivial

theorem faultFree_expression (e : Expr) : FaultFree True Proper (expression eval exec e) := by
  cases e with
  | literal v line => exact faultFree_pure fun _ => trivial
  | name x line => exact faultFree_read _
  | group e line => exact heval e
  | call f es line => exact faultFree_call heval hexec f es line
  | cast t e line => exact (heval e).bind fun v => faultFree_pure Value.proper_of_convert
  | unary op e line => exact (heval e).bind fun v => faultFree_pure Value.proper_of_unary
  | binary op l r line =>
    exact (heval l).bind fun a => (heval r).and.bind fun b => faultFree_pure Value.proper_of_binary
  | assign op x e line => exact faultFree_assignment heval op x e

omit hexec

/-! ## Declarations and simple statements -/

theorem faultFree_declare (d : VarDecl) : FaultFree True Anyhow (declare eval d) := by
  unfold declare
  cases d.initial with
  | none =>
    dsimp only
    split
    · exact faultFree_raise _ _
    · exact (faultFree_act _).bind fun _ => faultFree_pure fun _ => trivial
  | some e =>
    refine (faultFree_act _).bind fun _ => (faultFree_checked heval e).bind fun v => ?_
    split
    · exact (faultFree_act _).bind fun _ => faultFree_pure fun _ => trivial
    · exact faultFree_raise _ _

omit heval in
theorem faultFree_declareFunction (f : Function) :
    FaultFree True Anyhow (declareFunction f : Watched Unit) := by
  refine (faultFree_read (C := Anyhow) _).bind fun defined => ?_
  split
  · exact faultFree_raise _ _
  · exact (faultFree_act _).bind fun _ => faultFree_pure fun _ => trivial

omit heval in
theorem faultFree_printText (text : String) (line : Nat) :
    FaultFree True Anyhow (printText text line : Watched Unit) := by
  refine (faultFree_act _).bind fun complete => ?_
  split
  · exact faultFree_pure fun _ => trivial
  · exact faultFree_raise _ _

theorem faultFree_printAll (line : Nat) (es : List Expr) :
    FaultFree True Anyhow (printAll eval line es) := by
  induction es with
  | nil => exact faultFree_printText "\n" line
  | cons e es ih =>
    exact (faultFree_checked heval e).bind fun v =>
      (faultFree_printText v.text line).bind fun _ => ih

theorem faultFree_answer (value : Option Expr) (line : Nat) :
    FaultFree True Anyhow (answer eval value line) := by
  refine (faultFree_read (C := Anyhow) _).bind fun o => ?_
  cases o with
  | none => exact faultFree_raise _ _
  | some result =>
    cases value with
    | none =>
      dsimp only
      split
      · exact faultFree_pure fun _ => trivial
      · exact faultFree_raise _ _
    | some e =>
      dsimp only
      split
      · exact faultFree_raise _ _
      · refine (faultFree_checked heval e).bind fun v => ?_
        split
        · exact faultFree_pure fun _ => trivial
        · exact faultFree_raise _ _

omit heval in
theorem faultFree_leave (kind : Exit) (line : Nat) :
    FaultFree True Anyhow (leave kind line : Watched Flow) := by
  refine (faultFree_read (C := Anyhow) _).bind fun placed => ?_
  split
  · exact faultFree_pure fun _ => trivial
  · exact faultFree_raise _ _

theorem faultFree_condition (e : Expr) : FaultFree True Anyhow (condition eval e) :=
  (faultFree_checked heval e).bind fun _ => faultFree_pure fun _ => trivial

omit heval

/-! ## Blocks, conditionals and loops -/

include hexec

theorem faultFree_block (kind : ScopeKind) (b : Block) :
    FaultFree True Anyhow (block exec kind b) :=
  (faultFree_sequence hexec b.statements).inScope kind

theorem faultFree_branch (b : Block) : FaultFree True Anyhow (branch exec b) := by
  refine (faultFree_block hexec .conditional b).bind fun flow => ?_
  cases flow <;> exact faultFree_pure fun _ => trivial

include heval

theorem faultFree_branches (bs : Branches) : FaultFree True Anyhow (branches eval exec bs) := by
  fun_induction branches eval exec bs with
  | case1 => exact faultFree_pure fun _ => trivial
  | case2 c b rest line ih =>
    refine (faultFree_condition heval c).bind fun taken => ?_
    split
    · exact faultFree_branch hexec b
    · exact ih
  | case3 b line => exact faultFree_branch hexec b

theorem faultFree_repeated (c : Expr) (b : Block) {step : Watched Unit}
    (hstep : FaultFree True Anyhow step) (n : Nat) :
    FaultFree True Anyhow (repeated eval exec c b step n) := by
  -- On the bound of the rounds: a round that goes on has met no fault.
  induction n with
  | zero => exact faultFree_exhausted
  | succ n ih =>
    refine (faultFree_condition heval c).bind fun taken => ?_
    split
    · refine (faultFree_block hexec .loop b).bind fun flow => ?_
      cases flow with
      | next => exact hstep.bind fun _ => ih
      | _ => exact faultFree_pure fun _ => trivial
    · exact faultFree_pure fun _ => trivial

theorem faultFree_counted (d : VarDecl) (c step : Expr) (b : Block) (n : Nat) :
    FaultFree True Anyhow (counted eval exec d c step b n) := by
  have hstep : FaultFree True Anyhow (do let _ ← checked eval step : Watched Unit) :=
    (faultFree_checked heval step).bind fun _ => faultFree_pure fun _ => trivial
  exact ((faultFree_declare heval d).bind fun _ =>
    faultFree_repeated heval hexec c b hstep n).inScope .loop

/-! ## Statements and programs -/

theorem faultFree_statement (n : Nat) (s : Statement) :
    FaultFree True Anyhow (statement eval exec n s) := by
  have hpure {α : Type} (a : α) : FaultFree True Anyhow (pure a) := faultFree_pure fun _ => trivial
  cases s with
  | var d => exact (faultFree_declare heval d).bind fun _ => hpure _
  | func f => exact (faultFree_declareFunction f).bind fun _ => hpure _
  | expr e line => exact (faultFree_checked heval e).bind fun _ => hpure _
  | print e es line => exact (faultFree_printAll heval line (e :: es)).bind fun _ => hpure _
  | block b => exact faultFree_block hexec .plain b
  | cond c b rest line =>
    refine (faultFree_condition heval c).bind fun taken => ?_
    split
    · exact faultFree_branch hexec b
    · exact faultFree_branches heval hexec rest
  | loop c b line => exact faultFree_repeated heval hexec c b (hpure ()) n
  | count d c step b line => exact faultFree_counted heval hexec d c step b n
  | return_ value line => exact faultFree_answer heval value line
  | exit kind line => exact faultFree_leave kind line

omit heval in
theorem faultFree_each (ss : List Statement) : FaultFree True Anyhow (each exec ss) := by
  induction ss with
  | nil => exact faultFree_pure fun _ => trivial
  | cons s ss ih => exact (hexec s).bind fun _ => ih

end Constructs

theorem faultFree_evaluate_execute (n : Nat) :
    (∀ e, FaultFree True Proper (evaluate n e)) ∧ ∀ s, FaultFree True Anyhow (execute n s) := by
  induction n with
  | zero => exact ⟨fun _ => faultFree_exhausted, fun _ => faultFree_exhausted⟩
  | succ n ih =>
    exact ⟨fun e => (faultFree_expression ih.1 ih.2 e).noting e,
      fun s => faultFree_statement ih.1 ih.2 n s⟩

/-- An expression that comes to a proper value has met no fault. -/
theorem faultFree_evaluate (n : Nat) (e : Expr) : FaultFree True Proper (evaluate n e) :=
  (faultFree_evaluate_execute n).1 e

/-- A program that ends well has met no fault. -/
theorem faultFree_interpret (n : Nat) (p : Program) : FaultFree True Anyhow (interpret n p) :=
  (faultFree_act _).bind fun _ => faultFree_each (faultFree_evaluate_execute n).2 p.statements

end Watched

/-! ## Runs -/

namespace Machine

variable {n : Nat} {e : Expr} {p : Program} {m m' : Machine} {v : Value}

/-- What an expression comes to is the last of the values on the way to it. -/
theorem watched_evaluate_ends (h : evaluate n e m = .done v m') :
    ∃ ys, (Watched.evaluate n e m).2 = ys ++ [⟨e, v⟩] := by
  rw [← Watched.forget_evaluate] at h
  cases n with
  | zero => cases h
  | succ n =>
    unfold Watched.forget Watched.evaluate Watched.noting at h
    unfold Watched.evaluate Watched.noting
    rcases hx : expression (Watched.evaluate n) (Watched.execute n) e m with ⟨w | err | _, ys⟩
    · rw [hx] at h
      cases h
      exact ⟨ys, rfl⟩
    · rw [hx] at h
      cases h
    · rw [hx] at h
      cases h

/-- An expression comes to a value that is no fault only if none of the values on the way was one. -/
theorem watched_evaluate_proper (h : evaluate n e m = .done v m') (hv : v.isFault = false) :
    ∀ y ∈ (Watched.evaluate n e m).2, y.value.isFault = false := by
  rw [← Watched.forget_evaluate] at h
  exact (Watched.faultFree_evaluate n e m v m' h hv).2

/-- A program ends well only if none of the values on the way was a fault. -/
theorem watched_interpret_proper (h : interpret n p m = .done () m') :
    ∀ y ∈ (Watched.interpret n p m).2, y.value.isFault = false := by
  rw [← Watched.forget_interpret] at h
  exact (Watched.faultFree_interpret n p m () m' h trivial).2

/-- **No fault is lost.** Let a program be run on any machine, and let the values be listed that expressions
come to, at any depth and in the bodies of functions. Listing them changes nothing of the run. If one of
them is a fault and the run comes to an end, then it ends with a raised fault. In the same way an expression,
whose own value is the last of its list, comes to a value other than a fault only if none of the list is
one. -/
theorem faults_end_runs :
    (∀ (n : Nat) (p : Program) (m : Machine),
      (Watched.interpret n p m).1 = interpret n p m ∧
      ((∃ y ∈ (Watched.interpret n p m).2, y.value.isFault = true) →
        interpret n p m ≠ .exhausted → ∃ e m', interpret n p m = .raised e m')) ∧
    ∀ (n : Nat) (e : Expr) (m : Machine),
      (Watched.evaluate n e m).1 = evaluate n e m ∧
      ∀ v m', evaluate n e m = .done v m' →
        (∃ ys, (Watched.evaluate n e m).2 = ys ++ [⟨e, v⟩]) ∧
        (v.isFault = false → ∀ y ∈ (Watched.evaluate n e m).2, y.value.isFault = false) := by
  refine ⟨fun n p m => ⟨?_, ?_⟩, fun n e m => ⟨?_, fun v m' h => ⟨?_, ?_⟩⟩⟩
  · exact congrFun (Watched.forget_interpret n p) m
  · rintro ⟨y, hy, hfault⟩ hends
    cases hrun : interpret n p m with
    | done u m' =>
      have hproper := watched_interpret_proper hrun y hy
      rw [hfault] at hproper
      cases hproper
    | raised e m' => exact ⟨e, m', rfl⟩
    | exhausted => exact absurd hrun hends
  · exact congrFun (Watched.forget_evaluate n e) m
  · exact watched_evaluate_ends h
  · exact watched_evaluate_proper h

/-- A program that passes a division by zero to a function, two operators deep. -/
def dividing : Program := ⟨"dividing", [
  .func ⟨"f", .void, [⟨"a", .int, false, 1⟩], ⟨[], 1⟩, 1⟩,
  .expr (.call "f" [.unary .negate (.binary (.arithmetic .div) (.literal (.int 1) 2)
    (.literal (.int 0) 2) 2) 2] 2) 2]⟩

/-- The division comes to a fault, which the minus sign and the call pass on, and the statement raises it. -/
theorem dividing_ends :
    (Watched.interpret 20 dividing (initial (.empty none))).2.map (fun y => y.value) =
      [.int 1, .int 0, .fault .divisionByZero, .fault .divisionByZero, .fault .divisionByZero] ∧
    ∃ e m', interpret 20 dividing (initial (.empty none)) = .raised e m' := by
  have hvalues : (Watched.interpret 20 dividing (initial (.empty none))).2.map (fun y => y.value) =
      [.int 1, .int 0, .fault .divisionByZero, .fault .divisionByZero, .fault .divisionByZero] := rfl
  have hfault : ∃ y ∈ (Watched.interpret 20 dividing (initial (.empty none))).2,
      y.value.isFault = true := by
    have hmem : Value.fault .divisionByZero ∈
        (Watched.interpret 20 dividing (initial (.empty none))).2.map (fun y => y.value) := by
      rw [hvalues]
      simp
    obtain ⟨y, hy, hvalue⟩ := List.mem_map.1 hmem
    exact ⟨y, hy, by rw [hvalue]; rfl⟩
  have hends : interpret 20 dividing (initial (.empty none)) ≠ .exhausted := nofun
  exact ⟨hvalues, (faults_end_runs.1 20 dividing _).2 hfault hends⟩

end Machine

end Scriptling
