import Scriptling.Proofs.Machine.Quiet

/-!
# Scriptling.Proofs.Machine.Constructs -- every construct is quiet if its parts are

One statement for each construct of the language: if the expressions in it are quiet and the statements in
it change no more than they may, then so does the construct. Counting down the time closes the circle:
`quiet_evaluate` and `executes_execute` hold of all expressions and statements in any time, and
`meets_session` of programs run one after another.
-/

set_option autoImplicit false

namespace Scriptling.Traced

open Effects Machine

/-- A call is left with a value of the type that the innermost call promises. -/
def Answers (results : List ValueType) : Flow → Prop
  | .leaveCall v => ∃ t, results.head? = some t ∧ v.type? = some t
  | _ => True

/-- Executed on any machine, the statement takes allowed actions and changes no more than it may. -/
def Executes (T : ValueType → Prop) (s : Statement) (x : Traced Flow) : Prop :=
  ∀ m : Machine, (∀ t ∈ s.declaredTypes, T t) → m.FunctionsOf T →
    x.Meets (Action.Allowed T) (fun flow m' => m.Changes s m' ∧ Answers m.results flow)
      (fun _ m' => m.Changes s m') m

section Constructs

variable {T : ValueType → Prop} {eval : Expr → Traced Value} {exec : Statement → Traced Flow}
  (heval : ∀ e m, Quiet T Any (eval e) m) (hexec : ∀ s, Executes T s (exec s))

include heval

/-! ## Expressions -/

theorem quiet_checked (e : Expr) (m : Machine) : Quiet T Any (checked eval e) m := by
  refine (heval e m).bind fun v m' _ _ => ?_
  cases v with
  | fault f => exact quiet_raise f e.line
  | _ => exact quiet_pure trivial

omit heval in
/-- A value may be stored in a mutable variable of its type. -/
theorem quiet_store {x : String} {b : Binding} {v : Value} {m : Machine}
    (hx : m.scopes.binding? x = some b) (hb : b.mutable = true) (hv : v.type? = some b.type) :
    Quiet T Any (store x v) m := by
  intro hm
  obtain ⟨t, ht, hkeeps⟩ := Scopes.keeps_update? v hx hb
  have hperform : (Action.update x v).perform m = ({ m with scopes := t }, true) := by
    simp [Action.perform, ht]
  rw [store, meets_bind, meets_act]
  refine ⟨⟨b, hx, hb, hv⟩, ?_⟩
  rw [Action.after, hperform]
  exact meets_pure.2 ⟨⟨hkeeps, rfl, rfl⟩, trivial⟩

theorem quiet_assignment (op : AssignOperator) (x : String) (e : Expr) (m : Machine) :
    Quiet T Any (assignment eval op x e) m := by
  refine (quiet_read (R := fun _ b => b = m.scopes.binding? x) rfl).bind ?_
  rintro o m' hm' rfl
  cases hx : m.scopes.binding? x with
  | none => exact quiet_pure trivial
  | some b =>
    dsimp only
    split
    · rename_i hmut
      refine (heval e m').bind fun v m'' hm'' _ => ?_
      split
      · exact quiet_pure trivial
      · refine (quiet_read (R := Any) trivial).bind fun current m₃ hm₃ _ => ?_
        split
        · exact quiet_pure trivial
        · split
          · -- The variable that was checked is still there, so its type is that of the one stored to.
            rename_i htype
            obtain ⟨c, hc, hkeeps⟩ :=
              ((hm'.trans hm'').trans hm₃).scopes.binding? (by simp) hx
            exact quiet_store hc (hkeeps.mutable.trans hmut) (hkeeps.type ▸ htype)
          · exact quiet_pure trivial
    · exact quiet_pure trivial

/-- Arguments are of the types of their parameters. -/
def Fit (ps : List Param) (es : List Expr) : List ValueType → Except Fault (List Value) → Prop :=
  fun _ r => ∀ vs, r = .ok vs → ps.length = es.length →
    List.Forall₂ (fun p v => v.type? = some p.type) ps vs

theorem quiet_arguments (ps : List Param) (es : List Expr) (m : Machine) :
    Quiet T (Fit ps es) (arguments eval ps es) m := by
  induction ps generalizing es m with
  | nil =>
    refine quiet_pure fun vs hvs _ => ?_
    cases hvs
    exact .nil
  | cons p ps ih =>
    cases es with
    | nil => exact quiet_pure fun vs _ hlen => by cases hlen
    | cons e es =>
      refine (heval e m).bind fun v m' _ _ => ?_
      cases v with
      -- No arguments are passed on after a fault, so there is nothing to fit.
      | fault f => exact quiet_pure fun vs hvs _ => by cases hvs
      | _ =>
        dsimp only
        split
        · rename_i htype
          refine (ih es m').bind fun r m'' _ hr => ?_
          cases r with
          | error f => exact quiet_pure fun vs hvs _ => by cases hvs
          | ok vs =>
            refine quiet_pure fun ws hws hlen => ?_
            cases hws
            exact .cons htype (hr vs rfl (Nat.succ.inj hlen))
        · exact quiet_pure fun vs hvs _ => by cases hvs

omit heval

/-! ## Calls -/

/-- Parameters are defined in the current scope, each with a value of its type. -/
theorem local_defineParams {ps : List Param} {vs : List Value}
    (hvs : List.Forall₂ (fun p v => v.type? = some p.type) ps vs) (hps : ∀ p ∈ ps, T p.type)
    (m : Machine) : Local T Any (defineParams ps vs) m := by
  induction hvs generalizing m with
  | nil => exact (quiet_pure trivial).local
  | @cons p v ps vs hv _ ih =>
    have hpass : Local T Any (act (.pass p v)) m := fun hm =>
      have hkeeps : m.KeepsBut [p.name] (Action.after (.pass p v) m) :=
        ⟨Scopes.keepsBut_define p.name _ m.scopes, rfl, rfl⟩
      meets_act.2 ⟨⟨hps p List.mem_cons_self, hv⟩, hkeeps.keepsOuter, hm.of_keepsBut hkeeps, trivial⟩
    exact hpass.bind fun _ m' _ _ => ih (fun q hq => hps q (List.mem_cons_of_mem _ hq)) m'

include hexec

theorem local_sequence {ss : List Statement} (hss : ∀ t ∈ Statement.declaredTypesAll ss, T t)
    (m : Machine) : Local T Answers (Machine.sequence exec ss) m := by
  induction ss generalizing m with
  | nil => exact (quiet_pure (m := m) trivial).local
  | cons s ss ih =>
    rw [Statement.declaredTypesAll, List.forall_mem_append] at hss
    have hs : Local T Answers (exec s) m := fun hm =>
      (hexec s m hss.1 hm).mono
        (fun _ _ h => ⟨h.1.keepsOuter, hm.of_changes h.1 hss.1, h.2⟩) fun _ _ h => h.keepsOuter
    refine hs.bind fun flow m' hresults hflow => ?_
    cases flow with
    | next => exact ih hss.2 m'
    | leaveCall v => exact (quiet_pure (m := m') (hresults ▸ hflow)).local
    | _ => exact (quiet_pure (m := m') trivial).local

theorem quiet_bodyFlow {f : Function} {vs : List Value}
    (hvs : List.Forall₂ (fun p v => v.type? = some p.type) f.params vs)
    (hf : ∀ t ∈ f.declaredTypes, T t) (m : Machine) :
    Quiet T (fun _ flow => Answers [f.result] flow) (bodyFlow exec f vs) m := by
  rcases f with ⟨name, result, params, ⟨statements, bline⟩, line⟩
  rw [Function.declaredTypes, Block.declaredTypes, List.forall_mem_append] at hf
  have hparams : ∀ p ∈ params, T p.type := fun p hp => hf.1 _ (List.mem_map_of_mem hp)
  refine Quiet.inCall (P := Answers) (Local.inScope ?_) ?_
  · exact (local_defineParams hvs hparams _).bind fun _ m' _ _ => local_sequence hexec hf.2 m'
  · intro flow hflow
    cases flow <;> exact hflow

theorem quiet_body {f : Function} {vs : List Value}
    (hvs : List.Forall₂ (fun p v => v.type? = some p.type) f.params vs)
    (hf : ∀ t ∈ f.declaredTypes, T t) (line : Nat) (m : Machine) :
    Quiet T Any (body exec f vs line) m := by
  refine (quiet_bodyFlow hexec hvs hf m).bind fun flow m' _ _ => ?_
  cases flow with
  | next => exact quiet_pure trivial
  | leaveCall v => exact quiet_pure trivial
  | _ => exact quiet_raise _ _

include heval

theorem quiet_call (name : String) (es : List Expr) (line : Nat) (m : Machine) :
    Quiet T Any (call eval exec name es line) m := by
  intro hm
  revert hm
  -- The function is looked up before the arguments are evaluated and called after that.
  refine fun hm => ((quiet_read (R := fun _ o => o = m.scopes.function? name) rfl).bind ?_) hm
  rintro o m' _ rfl
  cases hname : m.scopes.function? name with
  | none => exact quiet_pure trivial
  | some f =>
    dsimp only
    split
    · rename_i hlen
      refine (quiet_arguments heval f.params es m').bind fun r m'' _ hr => ?_
      cases r with
      | error fault => exact quiet_pure trivial
      | ok vs => exact quiet_body hexec (hr vs rfl hlen) (hm.function? hname) line m''
    · exact quiet_pure trivial

theorem quiet_expression (e : Expr) (m : Machine) : Quiet T Any (expression eval exec e) m := by
  cases e with
  | literal v line => exact quiet_pure trivial
  | name x line => exact quiet_read trivial
  | group e line => exact heval e m
  | call f es line => exact quiet_call heval hexec f es line m
  | cast t e line => exact (heval e m).bind fun v _ _ _ => quiet_pure trivial
  | unary op e line => exact (heval e m).bind fun v _ _ _ => quiet_pure trivial
  | binary op l r line =>
    exact (heval l m).bind fun a m' _ _ => (heval r m').bind fun b _ _ _ => quiet_pure trivial
  | assign op x e line => exact quiet_assignment heval op x e m

omit hexec

/-! ## Declarations and simple statements -/

omit heval in
/-- Defining a variable without a value, or with one of its type. -/
theorem meets_define {d : VarDecl} {v : Value} {mutable : Bool} {m₀ m : Machine} (hd : T d.type)
    (hv : v = .void ∨ v.type? = some d.type) (h : m₀.KeepsBut [d.name] m) :
    (act (.define d.name ⟨v, d.type, mutable⟩) : Traced Bool).Meets (Action.Allowed T)
      (fun _ m' => m₀.KeepsBut [d.name] m') (fun _ m' => m₀.KeepsBut [d.name] m') m :=
  meets_act.2 ⟨⟨hd, hv⟩, h.trans ⟨Scopes.keepsBut_define d.name _ m.scopes, rfl, rfl⟩⟩

theorem meets_declare {d : VarDecl} (hd : T d.type) {m : Machine} (hm : m.FunctionsOf T) :
    (declare eval d).Meets (Action.Allowed T) (fun _ m' => m.KeepsBut [d.name] m')
      (fun _ m' => m.KeepsBut [d.name] m') m := by
  unfold declare
  cases d.initial with
  | none =>
    dsimp only
    split
    · exact meets_raise.2 (.refl _ m)
    · rw [meets_bind]
      exact (meets_define hd (.inl rfl) (.refl _ m)).mono (fun _ _ h => meets_pure.2 h)
        fun _ _ h => h
  | some e =>
    dsimp only
    rw [meets_bind]
    refine (meets_define hd (.inl rfl) (.refl _ m)).mono (fun _ m₁ h₁ => ?_) fun _ _ h => h
    rw [meets_bind]
    refine (quiet_checked heval e m₁ (hm.of_keepsBut h₁)).mono ?_ fun _ _ h => h₁.trans (.of_keeps h)
    rintro v m₂ ⟨h₂, -⟩
    have h : m.KeepsBut [d.name] m₂ := h₁.trans (.of_keeps h₂)
    split
    · rename_i htype
      rw [meets_bind]
      exact (meets_define hd (.inr htype) h).mono (fun _ _ h => meets_pure.2 h) fun _ _ h => h
    · exact meets_raise.2 h

omit heval in
theorem meets_declareFunction {f : Function} (hf : ∀ t ∈ f.declaredTypes, T t) (m : Machine) :
    (declareFunction f : Traced Unit).Meets (Action.Allowed T) (fun _ m' => m.Changes (.func f) m')
      (fun _ m' => m.Changes (.func f) m') m := by
  rw [declareFunction, meets_bind, meets_read]
  split
  · exact meets_raise.2 (.inl rfl)
  · rename_i hdefined
    have hnew : m.scopes.isFunctionDefined f.name = false := by simpa using hdefined
    rw [meets_bind, meets_act]
    exact ⟨⟨hf, hnew⟩, meets_pure.2 (.inr ⟨hnew, rfl⟩)⟩

omit heval in
theorem quiet_printText (text : String) (line : Nat) (m : Machine) :
    Quiet T Any (printText text line) m := by
  refine (quiet_write text).bind fun complete m' _ _ => ?_
  split
  · exact quiet_pure trivial
  · exact quiet_raise _ _

theorem quiet_printAll (line : Nat) (es : List Expr) (m : Machine) :
    Quiet T Any (printAll eval line es) m := by
  induction es generalizing m with
  | nil =>
    show Quiet T Any (printText "\n" line) m
    exact quiet_printText "\n" line m
  | cons e es ih =>
    refine (quiet_checked heval e m).bind fun v m' _ _ => ?_
    exact (quiet_printText v.text line m').bind fun _ m'' _ _ => ih m''

theorem quiet_answer (value : Option Expr) (line : Nat) (m : Machine) :
    Quiet T Answers (answer eval value line) m := by
  refine (quiet_read (R := fun results o => o = results.head?) rfl).bind ?_
  rintro o m' hm' rfl
  cases hhead : m.results.head? with
  | none => exact quiet_raise _ _
  | some result =>
    have hhead' : m'.results.head? = some result := by rw [hm'.results, hhead]
    cases value with
    | none =>
      dsimp only
      split
      · -- `void` is of type `void`.
        rename_i hvoid
        exact quiet_pure ⟨result, hhead', hvoid ▸ rfl⟩
      · exact quiet_raise _ _
    | some e =>
      dsimp only
      split
      · exact quiet_raise _ _
      · refine (quiet_checked heval e m').bind fun v m'' hm'' _ => ?_
        split
        · rename_i htype
          exact quiet_pure ⟨result, by rw [hm''.results, hhead'], htype⟩
        · exact quiet_raise _ _

omit heval in
theorem quiet_leave (kind : Exit) (line : Nat) (m : Machine) :
    Quiet T Answers (leave kind line) m := by
  refine (quiet_read (R := Any) trivial).bind fun placed m' _ _ => ?_
  split
  · cases kind <;> exact quiet_pure trivial
  · exact quiet_raise _ _

/-! ## Blocks, conditionals and loops -/

omit heval

theorem quiet_condition (heval : ∀ e m, Quiet T Any (eval e) m) (e : Expr) (m : Machine) :
    Quiet T Any (condition eval e) m :=
  (quiet_checked heval e m).bind fun _ _ _ _ => quiet_pure trivial

include hexec

theorem quiet_block (kind : ScopeKind) {b : Block} (hb : ∀ t ∈ b.declaredTypes, T t) (m : Machine) :
    Quiet T Answers (block exec kind b) m := by
  rcases b with ⟨statements, bline⟩
  exact Local.inScope (local_sequence hexec hb _)

theorem quiet_branch {b : Block} (hb : ∀ t ∈ b.declaredTypes, T t) (m : Machine) :
    Quiet T Answers (branch exec b) m := by
  refine (quiet_block hexec .conditional hb m).bind fun flow m' hm' hflow => ?_
  cases flow with
  -- The calls under way are those from before the block, so the promise is the same.
  | leaveCall v => exact quiet_pure (hm'.results ▸ hflow)
  | _ => exact quiet_pure trivial

include heval

theorem quiet_branches : ∀ {bs : Branches}, (∀ t ∈ bs.declaredTypes, T t) → ∀ m : Machine,
    Quiet T Answers (branches eval exec bs) m
  | .done, _, _ => quiet_pure trivial
  | .elif c b rest _, hbs, m => by
    rw [Branches.declaredTypes, List.forall_mem_append] at hbs
    refine (quiet_condition heval c m).bind fun taken m' hm' _ => ?_
    split
    · exact quiet_branch hexec hbs.1 m'
    · exact quiet_branches hbs.2 m'
  | .otherwise b _, hbs, m => quiet_branch hexec hbs m

theorem quiet_repeated (c : Expr) {b : Block} (hb : ∀ t ∈ b.declaredTypes, T t)
    {step : Traced Unit} (hstep : ∀ m, Quiet T Any step m) (n : Nat) (m : Machine) :
    Quiet T Answers (repeated eval exec c b step n) m := by
  -- On the bound of the rounds: every round leaves a machine that the next one may begin on.
  induction n generalizing m with
  | zero => exact quiet_exhausted
  | succ n ih =>
    refine (quiet_condition heval c m).bind fun taken m' _ _ => ?_
    split
    · refine (quiet_block hexec .loop hb m').bind fun flow m'' hm'' hflow => ?_
      cases flow with
      | next => exact (hstep m'').bind fun _ m₃ _ _ => ih m₃
      | leaveCall v => exact quiet_pure (hm''.results ▸ hflow)
      | _ => exact quiet_pure trivial
    · exact quiet_pure trivial

theorem quiet_counted {d : VarDecl} (hd : T d.type) (c step : Expr) {b : Block}
    (hb : ∀ t ∈ b.declaredTypes, T t) (n : Nat) (m : Machine) :
    Quiet T Answers (counted eval exec d c step b n) m := by
  -- The variable of the loop is declared in the scope of the loop, which is closed at the end.
  refine Local.inScope ?_
  have hdeclare (m : Machine) : Local T Any (declare eval d) m := fun hm =>
    (meets_declare heval hd hm).mono (fun _ _ h => ⟨h.keepsOuter, hm.of_keepsBut h, trivial⟩)
      fun _ _ h => h.keepsOuter
  have hstep (m : Machine) : Quiet T Any (do let _ ← checked eval step) m :=
    (quiet_checked heval step m).bind fun _ _ _ _ => quiet_pure trivial
  exact (hdeclare _).bind fun _ m' _ _ => (quiet_repeated heval hexec c hb hstep n m').local

/-! ## Statements and programs -/

omit heval hexec in
/-- A quiet statement that declares nothing. -/
theorem Quiet.executes {s : Statement} {x : Traced Flow} {m : Machine} (hx : Quiet T Answers x m)
    (hs : ∀ {m' : Machine}, m.Keeps m' → m.Changes s m') (hm : m.FunctionsOf T) :
    x.Meets (Action.Allowed T) (fun flow m' => m.Changes s m' ∧ Answers m.results flow)
      (fun _ m' => m.Changes s m') m :=
  (hx hm).mono (fun _ _ h => ⟨hs h.1, h.2⟩) fun _ _ h => hs h

theorem executes_statement (n : Nat) (s : Statement) :
    Executes T s (statement eval exec n s) := by
  intro m hs hm
  cases s with
  | var d =>
    have hd : T d.type := hs _ List.mem_cons_self
    rw [statement, meets_bind]
    exact (meets_declare heval hd hm).mono (fun _ _ h => meets_pure.2 ⟨h, trivial⟩) fun _ _ h => h
  | func f =>
    rw [statement, meets_bind]
    exact (meets_declareFunction hs m).mono (fun _ _ h => meets_pure.2 ⟨h, trivial⟩)
      fun _ _ h => h
  | expr e line =>
    exact ((quiet_checked heval e m).bind fun _ _ _ _ => quiet_pure trivial).executes id hm
  | print e es line =>
    exact ((quiet_printAll heval line (e :: es) m).bind fun _ _ _ _ => quiet_pure trivial).executes
      id hm
  | block b => exact (quiet_block hexec .plain hs m).executes id hm
  | cond c b rest line =>
    rw [Statement.declaredTypes, List.forall_mem_append] at hs
    refine Quiet.executes ((quiet_condition heval c m).bind fun taken m' _ _ => ?_) id hm
    split
    · exact quiet_branch hexec hs.1 m'
    · exact quiet_branches heval hexec hs.2 m'
  | loop c b line =>
    exact (quiet_repeated heval hexec c hs (fun _ => quiet_pure trivial) n m).executes id hm
  | count d c step b line =>
    rw [Statement.declaredTypes, List.forall_mem_cons] at hs
    exact (quiet_counted heval hexec hs.1 c step hs.2 n m).executes id hm
  | return_ value line => exact (quiet_answer heval value line m).executes id hm
  | exit kind line => exact (quiet_leave kind line m).executes id hm

end Constructs

variable {T : ValueType → Prop}

/-- In any time, expressions are quiet and statements change no more than they may. -/
theorem quiet_and_executes (n : Nat) :
    (∀ e m, Quiet T Any (evaluate n e) m) ∧ ∀ s, Executes T s (execute n s) := by
  induction n with
  | zero => exact ⟨fun _ _ => quiet_exhausted, fun _ _ _ _ => meets_exhausted.2 trivial⟩
  | succ n ih =>
    exact ⟨fun e m => quiet_expression ih.1 ih.2 e m, fun s => executes_statement ih.1 ih.2 n s⟩

theorem quiet_evaluate (n : Nat) (e : Expr) (m : Machine) : Quiet T Any (evaluate n e) m :=
  (quiet_and_executes n).1 e m

theorem executes_execute (n : Nat) (s : Statement) : Executes T s (execute n s) :=
  (quiet_and_executes n).2 s

/-! ## Sessions -/

/-- Statements at the outermost level, whose flow does not matter, keep what lies around. -/
theorem meets_each {exec : Statement → Traced Flow} (hexec : ∀ s, Executes T s (exec s))
    {ss : List Statement} (hss : ∀ t ∈ Statement.declaredTypesAll ss, T t) {m : Machine}
    (hm : m.FunctionsOf T) :
    (each exec ss).Meets (Action.Allowed T) (fun _ m' => m.KeepsOuter m' ∧ m'.FunctionsOf T)
      (fun _ m' => m.KeepsOuter m' ∧ m'.FunctionsOf T) m := by
  induction ss generalizing m with
  | nil => exact meets_pure.2 ⟨.refl m, hm⟩
  | cons s ss ih =>
    rw [Statement.declaredTypesAll, List.forall_mem_append] at hss
    have hafter {m' : Machine} (h : m.Changes s m') : m.KeepsOuter m' ∧ m'.FunctionsOf T :=
      ⟨h.keepsOuter, hm.of_changes h hss.1⟩
    rw [each, meets_bind]
    refine (hexec s m hss.1 hm).mono (fun _ m' h => ?_) fun _ _ h => hafter h
    obtain ⟨hkeeps, hm'⟩ := hafter h.1
    exact (ih hss.2 hm').mono (fun _ _ h => ⟨hkeeps.trans h.1, h.2⟩)
      fun _ _ h => ⟨hkeeps.trans h.1, h.2⟩

/-- A program begun on an idle machine leaves it idle. -/
theorem meets_interpret (n : Nat) {p : Program}
    (hp : ∀ t ∈ Statement.declaredTypesAll p.statements, T t) {m : Machine} (hidle : m.Idle)
    (hm : m.FunctionsOf T) :
    (interpret n p).Meets (Action.Allowed T) (fun _ m' => m'.Idle ∧ m'.FunctionsOf T)
      (fun _ m' => m'.Idle ∧ m'.FunctionsOf T) m := by
  have hload : Idle { m with file := p.file } := ⟨hidle.depth, hidle.results⟩
  have hm' : FunctionsOf T { m with file := p.file } := hm
  rw [interpret, program, meets_bind, meets_act]
  exact ⟨trivial, (meets_each (executes_execute n) hp hm').mono
    (fun _ _ h => ⟨hload.of_keepsOuter h.1, h.2⟩) fun _ _ h => ⟨hload.of_keepsOuter h.1, h.2⟩⟩

/-- A session begun on an idle machine takes allowed actions, raises nothing and leaves the machine idle. -/
theorem meets_session (n : Nat) {ps : List Program}
    (hps : ∀ p ∈ ps, ∀ t ∈ Statement.declaredTypesAll p.statements, T t) {m : Machine}
    (hidle : m.Idle) (hm : m.FunctionsOf T) :
    (session n ps).Meets (Action.Allowed T) (fun _ m' => m'.Idle ∧ m'.FunctionsOf T)
      (fun _ _ => False) m := by
  induction ps generalizing m with
  | nil => exact meets_pure.2 ⟨hidle, hm⟩
  | cons p ps ih =>
    rw [List.forall_mem_cons] at hps
    rw [session, meets_bind, meets_attempt]
    exact (meets_interpret n hps.1 hidle hm).mono (fun _ _ h => ih hps.2 h.1 h.2)
      fun _ _ h => ih hps.2 h.1 h.2

end Scriptling.Traced
