import Scriptling.Grammar.Program
import Scriptling.Proofs.Trace.Faulted

/-!
# Scriptling.Proofs.Machine.FirstFault -- which fault a run reports

Of the faults that come about in a run, the first is the one that is reported, with one exception. The fault of a
left operand waits until the right operand has been evaluated as well, and if a function that is called there
raises a fault, it is that one which is reported. The faults that wait at the end of a run tell which it was.

`Reports o R x` is the shape in which this passes through the constructs of the language. Here `o` is the first
fault that came about before `x`, if there was one. If `x` ends with a result, then `R` holds of the result and
of the first fault by then; if it raises a fault, that is the last one noted, and the first one is that which has
waited longest, or the raised one if none waits. A value that is put to use is no fault, so that between
statements no fault has come about (`Unharmed`), and the first fault on the way to a value is the value itself
(`Told`).

The main result is `first_fault_is_reported_or_waits`.
-/

set_option autoImplicit false

namespace Scriptling

/-! ## Faults that operators pass on -/

namespace Value

variable {v : Value} {f : Fault}

theorem eq_fault (h : v.fault? = some f) : v = fault f := by
  cases v with
  | fault g => exact congrArg fault (Option.some.inj h)
  | _ => cases h

theorem fault?_convert (h : v.fault? = some f) (t : ValueType) : (v.convert t).fault? = some f := by
  rw [eq_fault h]
  rfl

theorem fault?_unary (h : v.fault? = some f) (op : UnaryOperator) : (unary op v).fault? = some f := by
  rw [eq_fault h]
  cases op <;> rfl

/-- Of two operands that are faults, the left one is passed on. -/
theorem fault?_binary {a b : Value} (h : a.fault?.or b.fault? = some f) (op : BinaryOperator) :
    (binary op a b).fault? = some f := by
  cases a with
  | fault g => exact h
  | _ =>
    rw [eq_fault (v := b) h]
    rfl

end Value

namespace Faulted

open Effects Machine

/-- The first of the faults that were noted. -/
def first? (os : List Occurrence) : Option Fault := os.head?.map Occurrence.fault

theorem first?_append (os ps : List Occurrence) : first? (os ++ ps) = (first? os).or (first? ps) := by
  cases os <;> rfl

/-- With the result, if there is one, and the first fault, it is as `R` says. If a fault is raised, it is noted
last, and the first one is that of the outermost operand that has come to wait, or else the raised one. The first
fault before, if there was one, is `o`. -/
def Reported {α : Type} (o : Option Fault) (R : α → Option Fault → Prop) (waiting : List Fault) :
    Outcome α × List Occurrence → Prop
  | (.done a _, os) => R a (o.or (first? os))
  | (.raised e _, os) =>
    ∃ ps us, os = ps ++ [⟨e.fault, waiting ++ us⟩] ∧ o.or (first? os) = (us ++ [e.fault]).head?
  | (.exhausted, _) => True

/-- However the computation ends, what it reports is as said. -/
def Reports {α : Type} (o : Option Fault) (R : α → Option Fault → Prop) (x : Faulted α) : Prop :=
  ∀ waiting m, Reported o R waiting (x waiting m)

/-- No fault has come about. -/
abbrev Unharmed {α : Type} (_ : α) (o : Option Fault) : Prop := o = none

/-- The first fault is the one in place of the value. -/
abbrev Told (v : Value) (o : Option Fault) : Prop := o = v.fault?

/-- The first fault is the one in place of the value, unless that one is the first but was not noted yet. -/
abbrev Untold (v : Value) (o : Option Fault) : Prop := o = none ∨ o = v.fault?

section Laws

variable {α β : Type} {o : Option Fault} {R : α → Option Fault → Prop} {S : β → Option Fault → Prop}

theorem reports_pure {a : α} (h : R a o) : Reports o R (pure a) := by
  intro waiting m
  show R a (o.or none)
  rwa [Option.or_none]

/-- A fault may be raised if it is the first, or is known to be. -/
theorem reports_raise {f : Fault} (h : o = none ∨ o = some f) (line : Nat) :
    Reports o R (raise f line : Faulted α) := by
  intro waiting m
  refine ⟨[], [], by rw [List.append_nil]; rfl, ?_⟩
  show o.or (some f) = some f
  rcases h with rfl | rfl <;> rfl

theorem reports_exhausted : Reports o R (exhausted : Faulted α) := fun _ _ => trivial

theorem reports_read {f : Machine → α} (h : ∀ a, R a o) : Reports o R (read f) := by
  intro waiting m
  show R (f m) (o.or none)
  rw [Option.or_none]
  exact h _

theorem reports_act {a : Action} {R : Bool → Option Fault → Prop} (h : ∀ b, R b o) :
    Reports o R (act a) := by
  intro waiting m
  show R (a.perform m).2 (o.or none)
  rw [Option.or_none]
  exact h _

theorem Reports.mono {R' : α → Option Fault → Prop} {x : Faulted α} (hx : Reports o R x)
    (hR : ∀ a o', R a o' → R' a o') : Reports o R' x := by
  intro waiting m
  have h := hx waiting m
  revert h
  rcases x waiting m with ⟨a | e | _, os⟩
  · exact hR a _
  · exact id
  · exact id

/-- What goes on begins with the first fault that there is by then. -/
theorem Reports.bind {x : Faulted β} {f : β → Faulted α} (hx : Reports o S x)
    (hf : ∀ b o', S b o' → Reports o' R (f b)) : Reports o R (x >>= f) := by
  intro waiting m
  have hfirst := hx waiting m
  show Reported o R waiting (Noted.bind (x waiting) (fun b => f b waiting) m)
  unfold Noted.bind
  revert hfirst
  rcases x waiting m with ⟨⟨b, m'⟩ | ⟨e, m'⟩ | _, os⟩
  · intro hfirst
    have hrest := hf b _ hfirst waiting m'
    show Reported o R waiting ((f b waiting m').1, os ++ (f b waiting m').2)
    revert hrest
    rcases f b waiting m' with ⟨a | e | _, ps⟩
    · intro hrest
      show R a (o.or (first? (os ++ ps)))
      rw [first?_append, ← Option.or_assoc]
      exact hrest
    · rintro ⟨qs, us, rfl, hwaits⟩
      refine ⟨os ++ qs, us, (List.append_assoc _ _ _).symm, ?_⟩
      rw [first?_append, ← Option.or_assoc]
      exact hwaits
    · exact id
  · exact id
  · exact id

/-- Nothing has come about before what goes on. -/
theorem Reports.next {x : Faulted β} {f : β → Faulted α} (hx : Reports none Unharmed x)
    (hf : ∀ b, Reports none R (f b)) : Reports none R (x >>= f) :=
  hx.bind fun b _ ho => ho ▸ hf b

theorem unharmed_pure (a : α) : Reports none Unharmed (pure a) := reports_pure rfl

theorem unharmed_raise (f : Fault) (line : Nat) : Reports none R (raise f line : Faulted α) :=
  reports_raise (.inl rfl) line

theorem unharmed_read (f : Machine → α) : Reports none Unharmed (read f) := reports_read fun _ => rfl

theorem unharmed_act (a : Action) : Reports none Unharmed (act a) := reports_act fun _ => rfl

theorem Reports.always {x : Faulted α} (hx : Reports o R x) (a : Action) :
    Reports o R (always a x) := by
  intro waiting m
  have h := hx waiting m
  show Reported o R waiting (Run.finally_ a.after (x waiting).forget m, (x waiting m).2)
  unfold Run.finally_ Noted.forget
  revert h
  rcases x waiting m with ⟨b | e | _, os⟩ <;> exact id

theorem Reports.inScope {x : Faulted α} (hx : Reports none R x) (kind : ScopeKind) :
    Reports none R (inScope kind x) :=
  (unharmed_act (.enter kind)).next fun _ => hx.always .leave

theorem Reports.inCall {x : Faulted α} (hx : Reports none R x) (result : ValueType) :
    Reports none R (inCall result x) :=
  (unharmed_act (.start result)).next fun _ => hx.always .stop

/-- After it has been noted, the value is the first fault if it is one. -/
theorem Reports.noting {x : Faulted Value} (hx : Reports none Untold x) :
    Reports none Told (noting x) := by
  refine hx.bind fun v o ho => ?_
  cases v with
  | fault f =>
    refine Reports.bind (S := fun _ o => o = some f) (fun waiting m => ?_) fun _ _ h => reports_pure h
    show o.or (some f) = some f
    rcases ho with rfl | rfl <;> rfl
  | _ => exact reports_pure (ho.elim id id)

/-- A fault that waits is the first one, and it is among those that wait inside. -/
theorem Reports.awaiting {x : Faulted Value} (hx : Reports none Told x) (v : Value) :
    Reports v.fault? (fun b o => o = v.fault?.or b.fault?) (awaiting v x) := by
  intro waiting m
  have h := hx (waiting ++ v.fault?.toList) m
  show Reported _ _ waiting (x (waiting ++ v.fault?.toList) m)
  revert h
  rcases x (waiting ++ v.fault?.toList) m with ⟨b | e | _, os⟩
  · exact congrArg v.fault?.or
  · rintro ⟨ps, us, hos, hfirst⟩
    refine ⟨ps, v.fault?.toList ++ us, by rw [hos, List.append_assoc], ?_⟩
    cases v.fault? with
    | none => exact hfirst
    | some f => rfl
  · exact id

end Laws

section Constructs

variable {eval : Expr → Faulted Value} {exec : Statement → Faulted Flow}
  (heval : ∀ e, Reports none Told (eval e)) (hexec : ∀ s, Reports none Unharmed (exec s))

/-! ## Expressions -/

include heval

/-- A value that is used is no fault: a fault is raised instead, and is the first one. -/
theorem reports_checked (e : Expr) : Reports none Unharmed (checked eval e) := by
  refine (heval e).bind fun v o ho => ?_
  cases v with
  | fault f => exact reports_raise (.inr ho) e.line
  | _ => exact reports_pure ho

theorem reports_assignment (op : AssignOperator) (x : String) (e : Expr) :
    Reports none Untold (assignment eval op x e) := by
  refine (unharmed_read _).next fun target => ?_
  cases target with
  | none => exact reports_pure (.inl rfl)
  | some b =>
    dsimp only
    split
    · refine (heval e).bind fun v o ho => ?_
      split
      · exact reports_pure (.inr ho)
      · rename_i hv
        have hnone : o = none := ho.trans (Option.not_isSome_iff_eq_none.1 hv)
        subst hnone
        refine (unharmed_read _).next fun current => ?_
        split
        · exact reports_pure (.inl rfl)
        · split
          · refine (unharmed_act _).next fun stored => ?_
            split <;> exact reports_pure (.inl rfl)
          · exact reports_pure (.inl rfl)
    · exact reports_pure (.inl rfl)

/-- What is known of arguments: the first fault is the one that they come to, unless that was not noted yet. -/
abbrev UntoldArguments (r : Except Fault (List Value)) (o : Option Fault) : Prop :=
  o = none ∨ ∃ f, r = .error f ∧ o = some f

theorem reports_arguments (ps : List Param) (es : List Expr) :
    Reports none UntoldArguments (arguments eval ps es) := by
  induction ps generalizing es with
  | nil => exact reports_pure (.inl rfl)
  | cons p ps ih =>
    cases es with
    | nil => exact reports_pure (.inl rfl)
    | cons e es =>
      refine (heval e).bind fun v o ho => ?_
      cases v with
      | fault f => exact reports_pure (.inr ⟨f, rfl, ho⟩)
      | _ =>
        have hnone : o = none := ho
        subst hnone
        dsimp only
        split
        · refine (ih es).bind fun r o ho => ?_
          cases r with
          | ok vs =>
            rcases ho with ho | ⟨f, hf, -⟩
            · exact reports_pure (.inl ho)
            · cases hf
          | error f => exact reports_pure ho
        · exact reports_pure (.inl rfl)

omit heval

theorem reports_defineParams (ps : List Param) (vs : List Value) :
    Reports none Unharmed (defineParams ps vs : Faulted Unit) := by
  induction ps generalizing vs with
  | nil => exact unharmed_pure ()
  | cons p ps ih =>
    cases vs with
    | nil => exact unharmed_pure ()
    | cons v vs => exact (unharmed_act _).next fun _ => ih vs

include hexec

theorem reports_sequence (ss : List Statement) :
    Reports none Unharmed (Machine.sequence exec ss) := by
  induction ss with
  | nil => exact unharmed_pure _
  | cons s ss ih =>
    refine (hexec s).next fun flow => ?_
    cases flow with
    | next => exact ih
    | _ => exact unharmed_pure _

theorem reports_body (f : Function) (vs : List Value) (line : Nat) :
    Reports none Untold (body exec f vs line) := by
  have hstatements := (reports_defineParams f.params vs).next fun _ =>
    reports_sequence hexec f.body.statements
  refine ((hstatements.inScope .call).inCall f.result).next fun flow => ?_
  cases flow with
  | next => exact reports_pure (.inl rfl)
  | leaveCall v => exact reports_pure (.inl rfl)
  | _ => exact unharmed_raise _ line

include heval

theorem reports_call (name : String) (es : List Expr) (line : Nat) :
    Reports none Untold (call eval exec name es line) := by
  refine (unharmed_read _).next fun function => ?_
  cases function with
  | none => exact reports_pure (.inl rfl)
  | some f =>
    dsimp only
    split
    · refine (reports_arguments heval f.params es).bind fun r o ho => ?_
      rcases ho with rfl | ⟨fault, rfl, rfl⟩
      · cases r with
        | error fault => exact reports_pure (.inl rfl)
        | ok vs => exact reports_body hexec f vs line
      · exact reports_pure (.inr rfl)
    · exact reports_pure (.inl rfl)

omit heval hexec in
/-- The first fault is the value if it is passed on. -/
theorem untold_of_passed {v : Value} {o : Option Fault} (h : ∀ f, o = some f → v.fault? = some f) :
    Untold v o := by
  cases o with
  | none => exact .inl rfl
  | some f => exact .inr (h f rfl).symm

theorem reports_expression (e : Expr) :
    Reports none Untold (expressionWaiting awaiting eval exec e) := by
  cases e with
  | literal v line => exact reports_pure (.inl rfl)
  | name x line => exact reports_read fun _ => .inl rfl
  | group e line => exact (heval e).mono fun _ _ ho => .inr ho
  | call f es line => exact reports_call heval hexec f es line
  | cast t e line =>
    refine (heval e).bind fun v o ho => reports_pure (untold_of_passed fun f hf => ?_)
    exact Value.fault?_convert (ho.symm.trans hf) t
  | unary op e line =>
    refine (heval e).bind fun v o ho => reports_pure (untold_of_passed fun f hf => ?_)
    exact Value.fault?_unary (ho.symm.trans hf) op
  | binary op l r line =>
    -- The fault of the left operand waits for the right one, and comes first.
    refine (heval l).bind fun a o ho => ?_
    rw [ho]
    refine ((heval r).awaiting a).bind fun b o ho => reports_pure (untold_of_passed fun f hf => ?_)
    exact Value.fault?_binary (ho.symm.trans hf) op
  | assign op x e line => exact reports_assignment heval op x e

omit hexec

/-! ## Declarations and simple statements -/

theorem reports_declare (d : VarDecl) : Reports none Unharmed (declare eval d) := by
  unfold declare
  cases d.initial with
  | none =>
    dsimp only
    split
    · exact unharmed_raise _ _
    · exact (unharmed_act _).next fun _ => unharmed_pure ()
  | some e =>
    refine (unharmed_act _).next fun _ => (reports_checked heval e).next fun v => ?_
    split
    · exact (unharmed_act _).next fun _ => unharmed_pure ()
    · exact unharmed_raise _ _

omit heval in
theorem reports_declareFunction (f : Function) :
    Reports none Unharmed (declareFunction f : Faulted Unit) := by
  refine (unharmed_read _).next fun defined => ?_
  split
  · exact unharmed_raise _ _
  · exact (unharmed_act _).next fun _ => unharmed_pure ()

omit heval in
theorem reports_printText (text : String) (line : Nat) :
    Reports none Unharmed (printText text line : Faulted Unit) := by
  refine (unharmed_act _).next fun complete => ?_
  split
  · exact unharmed_pure ()
  · exact unharmed_raise _ _

theorem reports_printAll (line : Nat) (es : List Expr) :
    Reports none Unharmed (printAll eval line es) := by
  induction es with
  | nil => exact reports_printText "\n" line
  | cons e es ih =>
    exact (reports_checked heval e).next fun v => (reports_printText v.text line).next fun _ => ih

theorem reports_answer (value : Option Expr) (line : Nat) :
    Reports none Unharmed (answer eval value line) := by
  refine (unharmed_read _).next fun promise => ?_
  cases promise with
  | none => exact unharmed_raise _ line
  | some result =>
    cases value with
    | none =>
      dsimp only
      split
      · exact unharmed_pure _
      · exact unharmed_raise _ line
    | some e =>
      dsimp only
      split
      · exact unharmed_raise _ line
      · refine (reports_checked heval e).next fun v => ?_
        split
        · exact unharmed_pure _
        · exact unharmed_raise _ line

omit heval in
theorem reports_leave (kind : Exit) (line : Nat) :
    Reports none Unharmed (leave kind line : Faulted Flow) := by
  refine (unharmed_read _).next fun placed => ?_
  split
  · exact unharmed_pure _
  · exact unharmed_raise _ line

theorem reports_condition (e : Expr) : Reports none Unharmed (condition eval e) :=
  (reports_checked heval e).next fun _ => unharmed_pure _

omit heval

/-! ## Blocks, conditionals and loops -/

include hexec

theorem reports_block (kind : ScopeKind) (b : Block) :
    Reports none Unharmed (block exec kind b) :=
  (reports_sequence hexec b.statements).inScope kind

theorem reports_branch (b : Block) : Reports none Unharmed (branch exec b) := by
  refine (reports_block hexec .conditional b).next fun flow => ?_
  cases flow <;> exact unharmed_pure _

include heval

theorem reports_branches (bs : Branches) : Reports none Unharmed (branches eval exec bs) := by
  fun_induction branches eval exec bs with
  | case1 => exact unharmed_pure _
  | case2 c b rest line ih =>
    refine (reports_condition heval c).next fun taken => ?_
    split
    · exact reports_branch hexec b
    · exact ih
  | case3 b line => exact reports_branch hexec b

theorem reports_repeated (c : Expr) (b : Block) {step : Faulted Unit}
    (hstep : Reports none Unharmed step) (n : Nat) :
    Reports none Unharmed (repeated eval exec c b step n) := by
  -- On the bound of the rounds: a round that goes on has met no fault.
  induction n with
  | zero => exact reports_exhausted
  | succ n ih =>
    refine (reports_condition heval c).next fun taken => ?_
    split
    · refine (reports_block hexec .loop b).next fun flow => ?_
      cases flow with
      | next => exact hstep.next fun _ => ih
      | _ => exact unharmed_pure _
    · exact unharmed_pure _

theorem reports_counted (d : VarDecl) (c step : Expr) (b : Block) (n : Nat) :
    Reports none Unharmed (counted eval exec d c step b n) := by
  have hstep : Reports none Unharmed (do let _ ← checked eval step : Faulted Unit) :=
    (reports_checked heval step).next fun _ => unharmed_pure ()
  exact ((reports_declare heval d).next fun _ =>
    reports_repeated heval hexec c b hstep n).inScope .loop

/-! ## Statements and programs -/

theorem reports_statement (n : Nat) (s : Statement) :
    Reports none Unharmed (statement eval exec n s) := by
  have hnext {α : Type} {x : Faulted α} (hx : Reports none Unharmed x) :
      Reports none Unharmed (x >>= fun _ => pure Flow.next) := hx.next fun _ => unharmed_pure _
  cases s with
  | var d => exact hnext (reports_declare heval d)
  | func f => exact hnext (reports_declareFunction f)
  | expr e line => exact hnext (reports_checked heval e)
  | print e es line => exact hnext (reports_printAll heval line (e :: es))
  | block b => exact reports_block hexec .plain b
  | cond c b rest line =>
    refine (reports_condition heval c).next fun taken => ?_
    split
    · exact reports_branch hexec b
    · exact reports_branches heval hexec rest
  | loop c b line => exact reports_repeated heval hexec c b (unharmed_pure ()) n
  | count d c step b line => exact reports_counted heval hexec d c step b n
  | return_ value line => exact reports_answer heval value line
  | exit kind line => exact reports_leave kind line

omit heval in
theorem reports_each (ss : List Statement) : Reports none Unharmed (each exec ss) := by
  induction ss with
  | nil => exact unharmed_pure ()
  | cons s ss ih => exact (hexec s).next fun _ => ih

end Constructs

theorem reports_evaluate_execute (n : Nat) :
    (∀ e, Reports none Told (evaluate n e)) ∧ ∀ s, Reports none Unharmed (execute n s) := by
  induction n with
  | zero => exact ⟨fun _ => reports_exhausted, fun _ => reports_exhausted⟩
  | succ n ih =>
    exact ⟨fun e => (reports_expression ih.1 ih.2 e).noting, fun s => reports_statement ih.1 ih.2 n s⟩

theorem reports_interpret (n : Nat) (p : Program) : Reports none Unharmed (interpret n p) :=
  (unharmed_act _).next fun _ => reports_each (reports_evaluate_execute n).2 p.statements

end Faulted

namespace Machine

/-- **A run reports its first fault, or the first one waits.** Let a program be run on any machine, and let the
faults be noted that come about, in place of values and by being raised, at any depth and in the bodies of
functions. Noting them changes nothing of the run. If the run ends with a raised fault, then this is the last one
noted. If no fault of a left operand waits then for its right operand, it is also the first one; otherwise the
first one is the fault of the outermost operand that waits. -/
theorem first_fault_is_reported_or_waits {n : Nat} {p : Program} {m m' : Machine} {e : RuntimeError}
    (h : interpret n p m = .raised e m') :
    (Faulted.interpret n p [] m).1 = .raised e m' ∧
    ∃ before waiting, (Faulted.interpret n p [] m).2 = before ++ [⟨e.fault, waiting⟩] ∧
      (waiting = [] → Faulted.first? (Faulted.interpret n p [] m).2 = some e.fault) ∧
      ∀ f, waiting.head? = some f → Faulted.first? (Faulted.interpret n p [] m).2 = some f := by
  have hsame : (Faulted.interpret n p [] m).1 = .raised e m' := by
    rw [← h, ← Faulted.forget_interpret]
    rfl
  have hreports := Faulted.reports_interpret n p [] m
  revert hsame hreports
  rcases Faulted.interpret n p [] m with ⟨o, os⟩
  rintro rfl ⟨before, waiting, hos, hfirst⟩
  refine ⟨rfl, before, waiting, hos, ?_, fun f hf => ?_⟩
  · rintro rfl
    exact hfirst
  · have hwaits : Faulted.first? os = (waiting ++ [e.fault]).head? := hfirst
    rw [hwaits, List.head?_append, hf]
    rfl

/-- A program that adds what a function returns to what a division comes to. Both fail. -/
def overtaking : Program := ⟨"overtaking", [
  .func ⟨"f", .int, [], ⟨[.return_ (some (.name "missing" 2)) 2], 1⟩, 1⟩,
  .print (.binary (.arithmetic .add)
    (.binary (.arithmetic .div) (.literal (.int 1) 4) (.literal (.int 0) 4) 4) (.call "f" [] 4) 4) [] 4]⟩

/-- The tokens that it is read from. -/
def overtakingTokens : List Lexeme :=
  [⟨.identifier "f", 1⟩, ⟨.mark .colon, 1⟩, ⟨.keyword .func_, 1⟩, ⟨.mark .openParen, 1⟩, ⟨.mark .closeParen, 1⟩,
    ⟨.mark .arrow, 1⟩, ⟨.typeName .int, 1⟩, ⟨.mark .openBrace, 1⟩, ⟨.keyword .return_, 2⟩,
    ⟨.identifier "missing", 2⟩, ⟨.mark .semicolon, 2⟩, ⟨.mark .closeBrace, 3⟩, ⟨.keyword .print_, 4⟩,
    ⟨.integer 1, 4⟩, ⟨.operator (.arithmetic .div), 4⟩, ⟨.integer 0, 4⟩, ⟨.operator (.arithmetic .add), 4⟩,
    ⟨.identifier "f", 4⟩, ⟨.mark .openParen, 4⟩, ⟨.mark .closeParen, 4⟩, ⟨.mark .semicolon, 4⟩]

/-- The division fails first, and the fault that the function raises is reported. -/
theorem raised_fault_overtakes :
    Program.ofText "f: func() -> int \x7b\n  return missing;\n\x7d\nprint 1 / 0 + f();" "overtaking" =
      .ok overtaking ∧
    (∃ m', interpret 20 overtaking (initial (.empty none)) =
      .raised ⟨"overtaking", 2, .undefinedVariable⟩ m') ∧
    Faulted.first? (Faulted.interpret 20 overtaking [] (initial (.empty none))).2 = some .divisionByZero := by
  refine ⟨?_, ⟨_, rfl⟩, rfl⟩
  have htokens : (Token.ofText
      "f: func() -> int \x7b\n  return missing;\n\x7d\nprint 1 / 0 + f();").toOption = some overtakingTokens := by
    decide +kernel
  unfold Program.ofText
  split
  · rename_i e herror
    rw [herror] at htokens
    cases htokens
  · rename_i ts hts
    rw [hts] at htokens
    cases htokens
    rfl

/-- A program that adds the results of a call and of a division. Both fail, and neither is raised there. -/
def passing : Program := ⟨"passing", [
  .print (.binary (.arithmetic .add) (.call "g" [] 1)
    (.binary (.arithmetic .div) (.literal (.int 1) 1) (.literal (.int 0) 1) 1) 1) [] 1]⟩

/-- The fault of the call waits for the division, which fails as well. It is the first one and is reported. -/
theorem waiting_fault_is_reported :
    ∃ e m', interpret 20 passing (initial (.empty none)) = .raised e m' ∧
      (Faulted.interpret 20 passing [] (initial (.empty none))).2 =
        [⟨.undefinedFunction, []⟩, ⟨.divisionByZero, [.undefinedFunction]⟩, ⟨.undefinedFunction, []⟩,
          ⟨.undefinedFunction, []⟩] ∧
      Faulted.first? (Faulted.interpret 20 passing [] (initial (.empty none))).2 = some e.fault := by
  have hraised : ∃ e m', interpret 20 passing (initial (.empty none)) = .raised e m' := ⟨_, _, rfl⟩
  have hnotes : (Faulted.interpret 20 passing [] (initial (.empty none))).2 =
      [⟨.undefinedFunction, []⟩, ⟨.divisionByZero, [.undefinedFunction]⟩, ⟨.undefinedFunction, []⟩,
        ⟨.undefinedFunction, []⟩] := rfl
  obtain ⟨e, m', h⟩ := hraised
  obtain ⟨-, before, waiting, hlast, hfirst, -⟩ := first_fault_is_reported_or_waits h
  obtain ⟨-, hwaiting⟩ : e.fault = .undefinedFunction ∧ waiting = [] := by
    simpa using congrArg List.getLast? (hlast.symm.trans hnotes)
  exact ⟨e, m', h, hnotes, hfirst hwaiting⟩

end Machine

end Scriptling
