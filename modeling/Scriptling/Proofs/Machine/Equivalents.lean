import Scriptling.Proofs.Machine.Likeness

/-!
# Scriptling.Proofs.Machine.Equivalents -- statements that do the same

Two statements do the same if on every machine they come to the same end, or both to none, in whatever time. Two
of the statements of the language are others in disguise: a loop that counts, and an `elif`.

In both cases the parts of a statement are run in other places than those of its equivalent, with scopes of other
kinds around and one more of them. Of the relations between the scopes that lie in the way, the conditions and
the step of a loop need that names stand for the same; the bodies, that exits find the same, and they do, because
a body lies in a loop, or in a conditional, on both sides.

* `Equivalent` -- doing the same.
* `for_is_while`, `elif_is_nested_if` -- the two statements.
-/

set_option autoImplicit false

namespace Scriptling.Machine

open Effects Scopes

/-! ## Doing the same -/

/-- Executed on the machine, the statement comes to that end if it has the time. -/
def Ends (s : Statement) (m : Machine) (o : Outcome Flow) : Prop :=
  o ≠ .exhausted ∧ ∃ n, execute n s m = o

/-- A statement comes to one end. -/
theorem Ends.unique {s : Statement} {m : Machine} {o o' : Outcome Flow} (h : Ends s m o)
    (h' : Ends s m o') : o = o' := by
  obtain ⟨ho, n, hn⟩ := h
  obtain ⟨ho', n', hn'⟩ := h'
  rw [← execute_more_time (Nat.le_max_left n n') hn ho, execute_more_time (Nat.le_max_right n n') hn' ho']

/-- On every machine both statements come to the same end, or both to none. -/
def Equivalent (s t : Statement) : Prop := ∀ m o, Ends s m o ↔ Ends t m o

/-- Whichever of the two runs is to have the shorter time, there are times in which they are alike, and they can be
as long as one likes. -/
theorem equivalent_of_alike {s t : Statement}
    (h : ∀ side n, ∃ i j, n ≤ i ∧ n ≤ j ∧ RunAlike side Eq id (execute i s) (execute j t)) :
    Equivalent s t := by
  intro m o
  constructor
  · rintro ⟨ho, n, hn⟩
    obtain ⟨i, j, hi, -, halike⟩ := h .left n
    exact ⟨ho, j, halike.eq_of_left (execute_more_time hi hn ho) ho⟩
  · rintro ⟨ho, n, hn⟩
    obtain ⟨i, j, -, hj, halike⟩ := h .right n
    exact ⟨ho, i, halike.eq_of_right (execute_more_time hj hn ho) ho⟩

/-! ### One statement, and one more -/

/-- Handing on what a computation ends in is doing nothing more. -/
theorem bind_handing_on (x : Run Flow) {f : Flow → Run Flow} (hf : ∀ flow, f flow = pure flow) :
    x >>= f = x := by
  rw [funext hf, bind_pure]

theorem sequence_singleton (exec : Statement → Run Flow) (s : Statement) : sequence exec [s] = exec s :=
  bind_handing_on (exec s) fun flow => by cases flow <;> rfl

theorem sequence_var (n : Nat) (d : VarDecl) (ss : List Statement) :
    sequence (execute (n + 1)) (.var d :: ss) =
      declare (evaluate n) d >>= fun _ => sequence (execute (n + 1)) ss := by
  rw [sequence]
  exact bind_assoc (declare (evaluate n) d) (fun _ => pure Flow.next) _

/-- A round of a loop without a step. -/
theorem roundOf_pure (exec : Statement → Run Flow) (b : Block) :
    roundOf exec b (pure ()) = block exec .loop b :=
  bind_handing_on (block exec .loop b) fun flow => by cases flow <;> rfl

variable {side : Side} {k k' : Nat}

/-! ## Loops that count -/

/-- Around the rounds lies the scope of the counter, on the one side that of a loop, on the other that of a
block. -/
abbrev AroundRounds : Scopes → Scopes → Prop := Beside .loop .plain Eq

/-- The step of the loop is on the other side in the scope of a round. -/
abbrev AroundStep : Scopes → Scopes → Prop := Extra .loop AroundRounds

/-- The body is in the scope of a round, and on the other side in that of a block in it. -/
abbrev AroundBody : Scopes → Scopes → Prop := Beside .loop .plain AroundStep

theorem sameNames_aroundRounds : SameNames AroundRounds := likeness_eq.toSameNames.beside .loop .plain

theorem sameNames_aroundStep : SameNames AroundStep := sameNames_aroundRounds.extra .loop

theorem likeness_aroundBody : Likeness AroundBody := by
  refine sameNames_aroundStep.likeness_beside ?_ ?_
  · rintro _ _ ⟨bindings, functions, ⟨hst⟩⟩
    rfl
  · rintro _ _ ⟨bindings, functions, ⟨⟨bindings', functions', rfl⟩⟩⟩
    rfl

/-- A round of the loop that counts, and of the one that has the step in its body. -/
theorem round_alike (h : side.Shorter k (k' + 1)) (b : Block) (step : Expr) (l₁ l₂ : Nat) :
    RunAlike side AroundRounds id
      (roundOf (execute k) b (do let _ ← checked (evaluate k) step))
      (roundOf (execute (k' + 2)) ⟨[.block b, .expr step l₁], l₂⟩ (pure ())) := by
  have hparts := partsAlike h
  rw [roundOf_pure]
  refine RunAlike.inScope_right ((hparts.block likeness_aroundBody b).bind fun flow => ?_)
  cases flow with
  | next =>
    show RunAlike side AroundStep id
      ((do let _ ← checked (evaluate k) step) >>= fun _ => pure .next)
      (sequence (execute (k' + 2)) [.expr step l₁])
    rw [sequence_singleton, bind_assoc]
    exact (hparts.checked sameNames_aroundStep step).bind fun _ => runAlike_pure _
  -- The step is skipped on both sides.
  | _ => exact runAlike_pure _

theorem count_alike (h : side.Shorter k (k' + 1)) (hn : side.Shorter k (k' + 2)) (d : VarDecl)
    (c step : Expr) (b : Block) (l l₁ l₂ l₃ l₄ : Nat) :
    RunAlike side Eq id (execute (k + 1) (.count d c step b l))
      (execute (k' + 4) (.block ⟨[.var d, .loop c ⟨[.block b, .expr step l₁], l₂⟩ l₃], l₄⟩)) := by
  have hparts := partsAlike hn
  show RunAlike side Eq id (counted (evaluate k) (execute k) d c step b k)
    (inScope .plain (sequence (execute (k' + 3)) [.var d, .loop c ⟨[.block b, .expr step l₁], l₂⟩ l₃]))
  rw [sequence_var, sequence_singleton]
  refine RunAlike.inScope ((hparts.declare sameNames_aroundRounds Beside.define d).bind fun _ => ?_)
  show RunAlike side AroundRounds id (repeated _ _ c b _ k) (repeated _ _ c _ (pure ()) (k' + 2))
  rw [repeated_eq_rounds, repeated_eq_rounds]
  exact rounds_alike (hparts.condition sameNames_aroundRounds c) (round_alike h b step l₁ l₂) hn

/-- **A loop that counts is a loop in disguise.** On every machine it comes to the same end as the block that
declares its variable and then has a loop with the same condition, in whose body the body of the loop that counts,
a block of its own, is followed by the step; or both come to no end. -/
theorem for_is_while (d : VarDecl) (c step : Expr) (b : Block) (l l₁ l₂ l₃ l₄ : Nat) :
    Equivalent (.count d c step b l)
      (.block ⟨[.var d, .loop c ⟨[.block b, .expr step l₁], l₂⟩ l₃], l₄⟩) := by
  refine equivalent_of_alike fun side n => ?_
  cases side with
  | left =>
    exact ⟨n + 1, n + 4, by omega, by omega,
      count_alike (Side.shorter_left (by omega)) (Side.shorter_left (by omega)) d c step b l l₁ l₂ l₃ l₄⟩
  | right =>
    exact ⟨n + 3, n + 4, by omega, by omega,
      count_alike (Side.shorter_right (by omega)) (Side.shorter_right (by omega)) d c step b l l₁ l₂ l₃ l₄⟩

/-! ## Conditionals with several branches -/

/-- How a conditional ends whose branch ends so: leaving the conditional is over then, and all else goes on. -/
def afterBranch : Flow → Flow
  | .leaveConditional => .next
  | flow => flow

theorem afterBranch_afterBranch (flow : Flow) : afterBranch (afterBranch flow) = afterBranch flow := by
  cases flow <;> rfl

/-- Looks for the first branch whose condition is true. -/
def chosen (eval : Expr → Run Value) : Branches → Run (Option Block)
  | .done => pure none
  | .elif c b rest _ => do
    if ← condition eval c then pure (some b) else chosen eval rest
  | .otherwise b _ => pure (some b)

/-- Executes the branch, if there is one. -/
def taken (exec : Statement → Run Flow) : Option Block → Run Flow
  | none => pure .next
  | some b => afterBranch <$> block exec .conditional b

section Branches

variable (eval : Expr → Run Value) (exec : Statement → Run Flow)

theorem branch_eq_map (b : Block) : branch exec b = afterBranch <$> block exec .conditional b := by
  rw [map_eq_pure_bind]
  refine congrArg _ (funext fun flow => ?_)
  cases flow <;> rfl

/-- The branch is found first and executed then. -/
theorem branches_eq_chosen (bs : Branches) : branches eval exec bs = chosen eval bs >>= taken exec := by
  -- On the branches: the rest is looked at only where a condition has failed.
  fun_induction chosen eval bs with
  | case1 => rfl
  | case2 c b rest line ih =>
    rw [branches, bind_assoc]
    refine congrArg _ (funext fun holds => ?_)
    cases holds with
    | false => exact ih
    | true => exact branch_eq_map exec b
  | case3 b line => exact branch_eq_map exec b

/-- So no branch leaves a conditional further out. -/
theorem afterBranch_branches (bs : Branches) :
    afterBranch <$> branches eval exec bs = branches eval exec bs := by
  rw [branches_eq_chosen, map_bind]
  refine congrArg _ (funext fun o => ?_)
  cases o with
  | none => rfl
  | some b =>
    rw [taken, ← comp_map]
    exact congrArg (· <$> block exec .conditional b) (funext afterBranch_afterBranch)

end Branches

/-- Around the other branches lies, on the other side, the scope of the branch that they are in. -/
abbrev AroundBranches : Scopes → Scopes → Prop := Extra .conditional Eq

theorem sameNames_aroundBranches : SameNames AroundBranches := likeness_eq.toSameNames.extra .conditional

theorem likeness_branch : Likeness (Beside .conditional .conditional AroundBranches) := by
  refine sameNames_aroundBranches.likeness_beside ?_ ?_
  · rintro _ _ ⟨bindings, functions, ⟨rfl⟩⟩
    rfl
  · rintro _ _ ⟨bindings, functions, hst⟩
    rfl

/-- The other branches, and a branch that has a conditional of them in it. -/
theorem branches_alike (h : side.Shorter k k') (c : Expr) (b : Block) (rest : Branches) (l l' l₃ : Nat) :
    RunAlike side Eq id (branches (evaluate k) (execute k) (.elif c b rest l))
      (branch (execute (k' + 1)) ⟨[.cond c b rest l'], l₃⟩) := by
  rw [← afterBranch_branches, branch_eq_map]
  refine RunAlike.map (RunAlike.inScope_right ?_)
  rw [sequence_singleton]
  exact (partsAlike h).branches sameNames_aroundBranches likeness_branch (.elif c b rest l)

theorem cond_alike (h : side.Shorter k k') (h₁ : side.Shorter k (k' + 1)) (c₁ c₂ : Expr) (b₁ b₂ : Block)
    (rest : Branches) (l l₁ l₂ l₃ l₄ : Nat) :
    RunAlike side Eq id (execute (k + 1) (.cond c₁ b₁ (.elif c₂ b₂ rest l₁) l))
      (execute (k' + 2) (.cond c₁ b₁ (.otherwise ⟨[.cond c₂ b₂ rest l₂], l₃⟩ l₄) l)) := by
  have hparts := partsAlike h₁
  refine (hparts.condition likeness_eq.toSameNames c₁).bind fun holds => ?_
  cases holds with
  | false => exact branches_alike h c₂ b₂ rest l₁ l₂ l₃
  | true => exact hparts.branch (likeness_eq.beside .conditional) b₁

/-- **An `elif` is a nested `if`.** On every machine a conditional with an `elif` comes to the same end as the one
that has, in place of the `elif` and of what follows it, an `else` with a conditional of just these in it; or both
come to no end. And a conditional, of however many branches, does no more than to find a branch and to execute it:
leaving the conditional ends in the next statement, and all other ends of the branch are ends of the
conditional. -/
theorem elif_is_nested_if (c₁ c₂ : Expr) (b₁ b₂ : Block) (rest : Branches) (l l₁ l₂ l₃ l₄ : Nat) :
    Equivalent (.cond c₁ b₁ (.elif c₂ b₂ rest l₁) l)
        (.cond c₁ b₁ (.otherwise ⟨[.cond c₂ b₂ rest l₂], l₃⟩ l₄) l) ∧
      ∀ n, execute (n + 1) (.cond c₁ b₁ rest l) =
        chosen (evaluate n) (.elif c₁ b₁ rest l) >>= taken (execute n) := by
  refine ⟨equivalent_of_alike fun side n => ?_, fun n => branches_eq_chosen _ _ (.elif c₁ b₁ rest l)⟩
  cases side with
  | left =>
    exact ⟨n + 1, n + 2, by omega, by omega, cond_alike (Side.shorter_left (by omega))
      (Side.shorter_left (by omega)) c₁ c₂ b₁ b₂ rest l l₁ l₂ l₃ l₄⟩
  | right =>
    exact ⟨n + 2, n + 2, by omega, by omega, cond_alike (Side.shorter_right (by omega))
      (Side.shorter_right (by omega)) c₁ c₂ b₁ b₂ rest l l₁ l₂ l₃ l₄⟩

end Scriptling.Machine
