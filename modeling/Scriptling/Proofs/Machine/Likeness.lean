import Scriptling.Proofs.Machine.Lockstep
import Scriptling.Proofs.Machine.Simulation
import Scriptling.Proofs.Scope.Likeness

/-!
# Scriptling.Proofs.Machine.Likeness -- the same code in two places and in different times

The same expression or statement is run twice, on machines whose chains of scopes are related in a way that its
steps keep, and in times of which one is longer. Both runs end alike, on machines that are so related again, or
the one that has less time uses it up first (`partsAlike`). Which of the two has less time is a parameter, so
that one proof about two programs shows both that the second does what the first does, and the converse.

The relation between the scopes is a parameter, too, and changes on the way: to execute a block is to execute its
statements on machines that have one more scope each. Statements ask a `Likeness` of it; expressions are content
with `SameNames`, because whatever it is outside of a call, it is a likeness inside. So `lockstep` does not do
here: its runs have the same time, and exits find the same in both of them everywhere.

With equal scopes, two runs of the same code are compared that differ in their time alone. So more time changes
nothing for code that comes to an end (`execute_more_time`).
-/

set_option autoImplicit false

namespace Scriptling

open Effects

/-! ## Times -/

/-- The one or the other of two runs. -/
inductive Side where
  | left
  | right

/-- Of two times, the one of the side is not the longer one. -/
inductive Side.Shorter : Side → Nat → Nat → Prop
  | left {n : Nat} : Shorter .left 0 n
  | right {n : Nat} : Shorter .right n 0
  | succ {side : Side} {n n' : Nat} : Shorter side n n' → Shorter side (n + 1) (n' + 1)

theorem Side.shorter_left : ∀ {n n' : Nat}, n ≤ n' → Side.left.Shorter n n'
  | 0, _, _ => .left
  | _ + 1, _ + 1, h => .succ (shorter_left (Nat.le_of_succ_le_succ h))

theorem Side.shorter_right : ∀ {n n' : Nat}, n' ≤ n → Side.right.Shorter n n'
  | _, 0, _ => .right
  | _ + 1, _ + 1, h => .succ (shorter_right (Nat.le_of_succ_le_succ h))

/-! ## Outcomes of both runs -/

/-- Both runs have ended alike, on machines so related, where a result is changed by `g`, or the one of the side
has used up its time. -/
inductive Outcome.Alike {α β : Type} (P : Machine → Machine → Prop) (g : α → β) :
    Side → Outcome α → Outcome β → Prop
  | done {side : Side} {a : α} {m m' : Machine} : P m m' → Alike P g side (.done a m) (.done (g a) m')
  | raised {side : Side} {e : RuntimeError} {m m' : Machine} :
    P m m' → Alike P g side (.raised e m) (.raised e m')
  | left {o' : Outcome β} : Alike P g .left .exhausted o'
  | right {o : Outcome α} : Alike P g .right o .exhausted

namespace Machine

open Scopes

/-- Begun on machines that agree up to scopes so related, the computations end alike and on such machines, or the
one of the side uses up its time. -/
def RunAlike (side : Side) (S : Scopes → Scopes → Prop) {α β : Type} (g : α → β) (x : Run α) (y : Run β) :
    Prop :=
  ∀ m m', Agree S m m' → (x m).Alike (Agree S) g side (y m')

section Laws

variable {side : Side} {S T : Scopes → Scopes → Prop} {α β γ δ : Type} {g : α → β} {h : γ → δ} {x : Run α}
  {y : Run β} {k : α → Run γ} {l : β → Run δ} {m m' : Machine}

theorem runAlike_pure (a : α) : RunAlike side S g (pure a) (pure (g a)) := fun _ _ hm => .done hm

theorem RunAlike.bind (hx : RunAlike side S g x y) (hk : ∀ a, RunAlike side S h (k a) (l (g a))) :
    RunAlike side S h (x >>= k) (y >>= l) := by
  intro m m' hm
  have hfirst := hx m m' hm
  rw [Run.bind_apply, Run.bind_apply]
  revert hfirst
  generalize x m = o, y m' = o'
  intro hfirst
  cases hfirst with
  | done hm => exact hk _ _ _ hm
  | raised hm => exact .raised hm
  | left => exact .left
  | right => exact .right

theorem RunAlike.map {f : α → β} {x y : Run α} (hx : RunAlike side S id x y) :
    RunAlike side S id (f <$> x) (f <$> y) := by
  rw [map_eq_pure_bind, map_eq_pure_bind]
  exact hx.bind fun a => runAlike_pure (f a)

theorem runAlike_raise (f : Fault) (line : Nat) : RunAlike side S g (raise f line) (raise f line) := by
  intro m m' hm
  show Outcome.Alike _ g side (.raised ⟨m.file, line, f⟩ m) (.raised ⟨m'.file, line, f⟩ m')
  rw [hm.file]
  exact .raised hm

theorem runAlike_exhausted : RunAlike side S g exhausted exhausted := by
  cases side
  · exact fun _ _ _ => .left
  · exact fun _ _ _ => .right

theorem runAlike_read {r : Machine → α} {r' : Machine → β} (hr : ∀ m m', Agree S m m' → r' m' = g (r m)) :
    RunAlike side S g (read r) (read r') := by
  intro m m' hm
  rw [Run.read_apply, Run.read_apply, hr m m' hm]
  exact .done hm

/-- An action that does the same on both machines. -/
theorem runAlike_act {a : Action} (ha : ∀ m m', Agree S m m' →
    Agree S (a.perform m).1 (a.perform m').1 ∧ (a.perform m).2 = (a.perform m').2) :
    RunAlike side S id (act a) (act a) := by
  intro m m' hm
  obtain ⟨hagree, hcomplete⟩ := ha m m' hm
  show Outcome.Alike _ id side (.done (a.perform m).2 _) (.done (a.perform m').2 _)
  rw [hcomplete]
  exact .done hagree

/-- An action that changes nothing but the scopes. -/
theorem runAlike_act_scopes {a : Action} {f : Scopes → Scopes}
    (ha : ∀ m, a.perform m = ({ m with scopes := f m.scopes }, true)) (hf : ∀ {s t}, S s t → S (f s) (f t)) :
    RunAlike side S id (act a) (act a) :=
  runAlike_act fun m m' hm => by
    rw [ha, ha]
    exact ⟨hm.withScopes (hf hm.scopes), rfl⟩

theorem runAlike_update (hS : SameNames S) (x : String) (v : Value) :
    RunAlike side S id (act (.update x v)) (act (.update x v)) := by
  refine runAlike_act fun m m' hm => ?_
  have hupdate := hS.update? hm.scopes x v
  unfold Action.perform
  dsimp only
  revert hupdate
  generalize m.scopes.update? x v = s, m'.scopes.update? x v = t
  rintro (hst | _)
  · exact ⟨hm.withScopes hst, rfl⟩
  · exact ⟨hm, rfl⟩

theorem runAlike_printText (text : String) (line : Nat) :
    RunAlike side S id (printText text line) (printText text line) := by
  have hwrite : RunAlike side S id (act (.write text)) (act (.write text)) :=
    runAlike_act fun m m' hm => by
      unfold Action.perform
      dsimp only
      rw [hm.output]
      exact ⟨⟨hm.file, rfl, hm.results, hm.scopes⟩, rfl⟩
  refine hwrite.bind fun complete => ?_
  cases complete
  · exact runAlike_raise _ line
  · exact runAlike_pure ()

/-! ### Inside scopes and calls -/

/-- What is put in order at the end, after which the machines agree as they are to. -/
theorem finally_alike {f f' : Machine → Machine} (hx : RunAlike side T g x y) (hm : Agree T m m')
    (hf : ∀ m m', Agree T m m' → Agree S (f m) (f' m')) :
    (Run.finally_ f x m).Alike (Agree S) g side (Run.finally_ f' y m') := by
  have hends := hx m m' hm
  unfold Run.finally_
  revert hends
  generalize x m = o, y m' = o'
  intro hends
  cases hends with
  | done hm => exact .done (hf _ _ hm)
  | raised hm => exact .raised (hf _ _ hm)
  | left => exact .left
  | right => exact .right

theorem RunAlike.inScope {kind kind' : ScopeKind} (hx : RunAlike side (Beside kind kind' S) g x y) :
    RunAlike side S g (inScope kind x) (inScope kind' y) := fun _ _ hm =>
  finally_alike hx (hm.withScopes (Beside.enter hm.scopes)) fun _ _ h => h.withScopes h.scopes.leave

/-- The second run has a scope more. -/
theorem RunAlike.inScope_right {kind : ScopeKind} (hx : RunAlike side (Extra kind S) g x y) :
    RunAlike side S g x (Effects.inScope kind y) := by
  intro m m' hm
  have hid : Run.finally_ id x m = x m := by
    unfold Run.finally_
    cases x m <;> rfl
  rw [← hid]
  exact finally_alike hx (hm.withScopes (Extra.enter hm.scopes)) fun _ _ h => h.withScopes h.scopes.leave

theorem RunAlike.inCall (hx : RunAlike side S g x y) (result : ValueType) :
    RunAlike side S g (inCall result x) (inCall result y) := fun _ _ hm =>
  finally_alike hx (hm.start result) fun _ _ h => h.stop

end Laws

/-! ## Expressions and statements -/

variable {side : Side} {S : Scopes → Scopes → Prop}

/-- Two runs in which names stand for the same. -/
def naming (side : Side) (hS : SameNames S) : Correspondence Run Run where
  line := id
  Place := Unit
  Matches _ _ _ g x y := RunAlike side S g x y
  matches_pure := runAlike_pure
  matches_bind := RunAlike.bind
  matches_raise := runAlike_raise
  matches_binding? _ x := runAlike_read fun _ _ hm => (hS.bindings hm.scopes x).symm
  matches_get _ x := runAlike_read fun _ _ hm => (hS.get hm.scopes x).symm
  matches_function? _ x := runAlike_read fun m m' hm => by
    rw [funext Function.reline_id, ← hS.functions hm.scopes x]
    exact Option.map_id'.symm
  matches_update _ := runAlike_update hS

/-- Two runs that are alike whatever the likeness. -/
def likening (side : Side) : Simulation Run Run where
  line := id
  Place := Unit
  under _ p := p
  Matches _ _ _ g x y := ∀ S, Likeness S → RunAlike side S g x y
  matches_pure a := fun _ _ => runAlike_pure a
  matches_bind hx hk := fun S hS => (hx S hS).bind fun a => hk a S hS
  matches_raise f n := fun _ _ => runAlike_raise f n
  matches_binding? p x := fun _ hS => (naming side hS.toSameNames).matches_binding? p x
  matches_get p x := fun _ hS => (naming side hS.toSameNames).matches_get p x
  matches_function? p x := fun _ hS => (naming side hS.toSameNames).matches_function? p x
  matches_update _ x v := fun _ hS => runAlike_update hS.toSameNames x v
  matches_exhausted := fun _ _ => runAlike_exhausted
  matches_isFunctionDefined _ x := fun _ hS =>
    runAlike_read fun _ _ hm => (hS.isFunctionDefined hm.scopes x).symm
  matches_promise _ := fun _ _ => runAlike_read fun _ _ hm => congrArg List.head? hm.results.symm
  matches_within _ kind := fun _ hS => runAlike_read fun _ _ hm => by
    cases kind with
    | break_ => exact (hS.inLoop hm.scopes).symm
    | remit_ => exact (hS.inConditional hm.scopes).symm
  matches_define _ x b := fun _ hS => runAlike_act_scopes (fun _ => rfl) fun h => hS.define h x b
  matches_pass _ q v := fun _ hS => runAlike_act_scopes (fun _ => rfl) fun h => hS.define h q.name _
  matches_defineFunction _ f := fun _ hS => by
    rw [Function.reline_id]
    exact runAlike_act_scopes (fun _ => rfl) fun h => hS.defineFunction h f
  matches_inScope kind hx := fun _ hS => (hx _ (hS.beside kind)).inScope
  matches_inCall result hx := fun S hS => (hx S hS).inCall result
  matches_printText _ _ _ n text := fun _ _ => runAlike_printText text n

/-! ## Rounds of a loop -/

/-- A loop, of a test and what is done in a round. The number bounds the rounds. -/
def rounds (test : Run Bool) (round : Run Flow) : Nat → Run Flow
  | 0 => exhausted
  | n + 1 => do
    if ← test then
      match ← round with
      | .next => rounds test round n
      | .leaveLoop => pure .next
      | flow => pure flow
    else pure .next

/-- A round of a loop with a step: the body, and the step unless the body leaves. -/
def roundOf (exec : Statement → Run Flow) (b : Block) (step : Run Unit) : Run Flow := do
  match ← block exec .loop b with
  | .next => do
    step
    pure .next
  | flow => pure flow

theorem repeated_eq_rounds (eval : Expr → Run Value) (exec : Statement → Run Flow) (c : Expr) (b : Block)
    (step : Run Unit) (n : Nat) :
    repeated eval exec c b step n = rounds (condition eval c) (roundOf exec b step) n := by
  induction n with
  | zero => rfl
  | succ n ih =>
    rw [repeated, rounds, roundOf, ih]
    refine congrArg _ (funext fun taken => ?_)
    split
    · rw [bind_assoc]
      refine congrArg _ (funext fun flow => ?_)
      cases flow with
      | next =>
        dsimp only
        rw [bind_assoc]
        rfl
      | _ => rfl
    · rfl

/-- Loops are alike if a round is, and no more rounds are allowed than there is time for. -/
theorem rounds_alike {test test' : Run Bool} {round round' : Run Flow} {n n' : Nat}
    (htest : RunAlike side S id test test') (hround : RunAlike side S id round round')
    (hn : side.Shorter n n') : RunAlike side S id (rounds test round n) (rounds test' round' n') := by
  induction hn with
  | left => exact fun _ _ _ => .left
  | right => exact fun _ _ _ => .right
  | succ _ ih =>
    refine htest.bind fun taken => ?_
    cases taken with
    | false => exact runAlike_pure _
    | true =>
      refine hround.bind fun flow => ?_
      cases flow with
      | next => exact ih htest hround
      | _ => exact runAlike_pure _

/-! ## The parts of constructs -/

/-- The parts of constructs are alike: expressions wherever names stand for the same, statements wherever exits
find the same, too, and names are defined alike. -/
structure PartsAlike (side : Side) (eval eval' : Expr → Run Value) (exec exec' : Statement → Run Flow) :
    Prop where
  evaluates : ∀ {S}, SameNames S → ∀ e, RunAlike side S id (eval e) (eval' e)
  executes : ∀ {S}, Likeness S → ∀ s, RunAlike side S id (exec s) (exec' s)

namespace PartsAlike

variable {eval eval' : Expr → Run Value} {exec exec' : Statement → Run Flow} {k k' : ScopeKind}
  (h : PartsAlike side eval eval' exec exec')

include h

theorem relined (hS : SameNames S) (e : Expr) : RunAlike side S id (eval e) (eval' (e.reline id)) := by
  rw [e.reline_id]
  exact h.evaluates hS e

theorem checked (hS : SameNames S) (e : Expr) :
    RunAlike side S id (Machine.checked eval e) (Machine.checked eval' e) := by
  have hchecked := (naming side hS).checked (p := ()) (h.relined hS) e
  rwa [show e.reline (naming side hS).line = e from e.reline_id] at hchecked

theorem condition (hS : SameNames S) (c : Expr) :
    RunAlike side S id (Machine.condition eval c) (Machine.condition eval' c) :=
  (h.checked hS c).bind fun _ => runAlike_pure _

/-- A variable is declared alike where names are defined alike, whatever exits find. -/
theorem declare (hS : SameNames S) (hdefine : ∀ {s t}, S s t → ∀ x b, S (s.define x b) (t.define x b))
    (d : VarDecl) : RunAlike side S id (Machine.declare eval d) (Machine.declare eval' d) := by
  have hdeclare := (naming side hS).declare (p := ()) (h.relined hS) d fun b =>
    runAlike_act_scopes (fun _ => rfl) fun hst => hdefine hst d.name b
  rwa [show d.reline (naming side hS).line = d from d.reline_id] at hdeclare

theorem sequence (hS : Likeness S) (ss : List Statement) :
    RunAlike side S id (Machine.sequence exec ss) (Machine.sequence exec' ss) := by
  induction ss with
  | nil => exact runAlike_pure _
  | cons s ss ih =>
    refine (h.executes hS s).bind fun flow => ?_
    cases flow with
    | next => exact ih
    | _ => exact runAlike_pure _

/-- A block, in scopes of two kinds. -/
theorem block (hS : Likeness (Beside k k' S)) (b : Block) :
    RunAlike side S id (Machine.block exec k b) (Machine.block exec' k' b) :=
  (h.sequence hS b.statements).inScope

theorem branch (hS : Likeness (Beside .conditional .conditional S)) (b : Block) :
    RunAlike side S id (Machine.branch exec b) (Machine.branch exec' b) := by
  refine (h.block hS b).bind fun flow => ?_
  cases flow <;> exact runAlike_pure _

theorem branches (hS : SameNames S) (hbranch : Likeness (Beside .conditional .conditional S)) (bs : Branches) :
    RunAlike side S id (Machine.branches eval exec bs) (Machine.branches eval' exec' bs) := by
  cases bs with
  | done => exact runAlike_pure _
  | elif c b rest line =>
    have ih := branches hS hbranch rest
    refine (h.condition hS c).bind fun holds => ?_
    cases holds with
    | false => exact ih
    | true => exact h.branch hbranch b
  | otherwise b line => exact h.branch hbranch b

/-- The body of a function is run in the scope of the call, wherever that is. -/
theorem bodyFlow (hS : SameNames S) (f : Function) (vs : List Value) :
    RunAlike side S id (Machine.bodyFlow exec f vs) (Machine.bodyFlow exec' f vs) := by
  have hparams : RunAlike side (Beside .call .call S) id (defineParams f.params vs)
      (defineParams (f.params.map (Param.reline id)) vs) :=
    (likening side).defineParams () f.params vs _ hS.beside_call
  rw [Param.map_reline_id] at hparams
  exact (hparams.bind fun _ => h.sequence hS.beside_call f.body.statements).inScope.inCall f.result

theorem expression (hS : SameNames S) (e : Expr) :
    RunAlike side S id (Machine.expression eval exec e) (Machine.expression eval' exec' e) := by
  have hflow (f : Function) (vs : List Value) : (naming side hS).Matches () id (Machine.bodyFlow exec f vs)
      (Machine.bodyFlow exec' (f.reline (naming side hS).line) vs) := by
    rw [show f.reline (naming side hS).line = f from f.reline_id]
    exact h.bodyFlow hS f vs
  have hexpression := (naming side hS).expression (h.relined hS) hflow e
  rwa [show e.reline (naming side hS).line = e from e.reline_id] at hexpression

theorem repeated (hS : Likeness S) (c : Expr) (b : Block) {step step' : Run Unit}
    (hstep : RunAlike side S id step step') {n n' : Nat} (hn : side.Shorter n n') :
    RunAlike side S id (Machine.repeated eval exec c b step n) (Machine.repeated eval' exec' c b step' n') := by
  rw [repeated_eq_rounds, repeated_eq_rounds]
  refine rounds_alike (h.condition hS.toSameNames c) ?_ hn
  refine (h.block (hS.beside .loop) b).bind fun flow => ?_
  cases flow with
  | next => exact hstep.bind fun _ => runAlike_pure _
  | _ => exact runAlike_pure _

/-- The same number of rounds is allowed. -/
theorem statement_of_rounds (hS : Likeness S) (n : Nat) (s : Statement) :
    RunAlike side S id (Machine.statement eval exec n s) (Machine.statement eval' exec' n s) := by
  have hexec (s : Statement) (T : Scopes → Scopes → Prop) (hT : Likeness T) :
      RunAlike side T id (exec s) (exec' (s.reline id)) := by
    rw [s.reline_id]
    exact h.executes hT s
  have hstatement := (likening side).statement (fun _ e _ hT => h.relined hT.toSameNames e)
    (fun _ => hexec) () n s S hS
  rwa [show s.reline (likening side).line = s from s.reline_id] at hstatement

theorem statement (hS : Likeness S) {n n' : Nat} (hn : side.Shorter n n') (s : Statement) :
    RunAlike side S id (Machine.statement eval exec n s) (Machine.statement eval' exec' n' s) := by
  cases s with
  | loop c b line => exact h.repeated hS c b (runAlike_pure ()) hn
  | count d c step b line =>
    have hloop := hS.beside .loop
    refine ((h.declare hloop.toSameNames hloop.define d).bind fun _ => ?_).inScope
    exact h.repeated hloop c b ((h.checked hloop.toSameNames step).bind fun _ => runAlike_pure ()) hn
  -- Only loops have rounds.
  | _ => exact h.statement_of_rounds hS n _

end PartsAlike

/-- In two times, expressions and statements are alike. -/
theorem partsAlike {n n' : Nat} (hn : side.Shorter n n') :
    PartsAlike side (evaluate n) (evaluate n') (execute n) (execute n') := by
  -- On the times: calls execute statements, and statements evaluate expressions, in less of it.
  induction hn with
  | left => exact ⟨fun _ _ _ _ _ => .left, fun _ _ _ _ _ => .left⟩
  | right => exact ⟨fun _ _ _ _ _ => .right, fun _ _ _ _ _ => .right⟩
  | succ hn ih => exact ⟨fun hS => ih.expression hS, fun hS => ih.statement hS hn⟩

/-! ## The same machine -/

theorem Agree.eq {m m' : Machine} (h : Agree Eq m m') : m = m' := by
  rcases m with ⟨file, scopes, results, output⟩
  rcases m' with ⟨file', scopes', results', output'⟩
  obtain ⟨hfile, houtput, hresults, hscopes⟩ := h
  congr

theorem agree_refl (m : Machine) : Agree Eq m m := ⟨rfl, rfl, rfl, rfl⟩

section Same

variable {α : Type} {x y : Run α} {m : Machine} {o : Outcome α}

theorem RunAlike.eq_of_left (h : RunAlike .left Eq id x y) (hx : x m = o) (ho : o ≠ .exhausted) : y m = o := by
  have hends := h m m (agree_refl m)
  rw [hx] at hends
  generalize y m = o' at hends
  cases hends with
  | done hm => rw [hm.eq, id]
  | raised hm => rw [hm.eq]
  | left => exact absurd rfl ho

theorem RunAlike.eq_of_right (h : RunAlike .right Eq id x y) (hy : y m = o) (ho : o ≠ .exhausted) :
    x m = o := by
  have hends := h m m (agree_refl m)
  rw [hy] at hends
  generalize x m = o' at hends
  cases hends with
  | done hm => rw [hm.eq, id]
  | raised hm => rw [hm.eq]
  | right => exact absurd rfl ho

end Same

/-- What comes to an end does so in the same way when it has more time. -/
theorem execute_more_time {n n' : Nat} (hn : n ≤ n') {s : Statement} {m : Machine} {o : Outcome Flow}
    (h : execute n s m = o) (ho : o ≠ .exhausted) : execute n' s m = o :=
  ((partsAlike (Side.shorter_left hn)).executes likeness_eq s).eq_of_left h ho

end Machine

end Scriptling
