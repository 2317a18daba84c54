import Scriptling.Proofs.Machine.Assignments
import Scriptling.Proofs.Machine.Likeness
import Scriptling.Proofs.Machine.StaticTypes

/-!
# Scriptling.Proofs.Machine.Compound -- compound assignments are expanded

A compound assignment `x += e` says the same as `x = x + e`, but it is not evaluated in the same order: it takes the
value of `x` after `e` and not before, and it looks for a fault in place of `e` before it applies the operator, where
the expansion leaves this to the operator. The first makes no difference where `e` leaves the value of `x` alone; the
second makes none because the value of a variable is never a fault, so the operator hands on the fault of `e`
(`Value.binary_fault_right`).

The expansion has one operator more to evaluate, so it takes one step of time more; apart from that, both are the
same computation (`expansion_eq`). The main result, `compound_assignments_expand`, is independent of time.
-/

set_option autoImplicit false

namespace Scriptling.Machine

open Effects Scopes

/-! ## Ends of expressions -/

/-- Evaluated on the machine, the expression comes to that end if it has the time. -/
def Evaluates (e : Expr) (m : Machine) (o : Outcome Value) : Prop :=
  o ≠ .exhausted ∧ ∃ n, evaluate n e m = o

theorem evaluates_done {n : Nat} {e : Expr} {m m' : Machine} {v : Value} (h : evaluate n e m = .done v m') :
    Evaluates e m (.done v m') :=
  ⟨nofun, n, h⟩

/-- What comes to an end does so in the same way when it has more time. -/
theorem evaluate_more_time {n n' : Nat} (hn : n ≤ n') {e : Expr} {m : Machine} {o : Outcome Value}
    (h : evaluate n e m = o) (ho : o ≠ .exhausted) : evaluate n' e m = o :=
  ((partsAlike (Side.shorter_left hn)).evaluates likeness_eq.toSameNames e).eq_of_left h ho

/-- An expression comes to one end. -/
theorem Evaluates.unique {e : Expr} {m : Machine} {o o' : Outcome Value} (h : Evaluates e m o)
    (h' : Evaluates e m o') : o = o' := by
  obtain ⟨ho, n, hn⟩ := h
  obtain ⟨ho', n', hn'⟩ := h'
  rw [← evaluate_more_time (Nat.le_max_left n n') hn ho, evaluate_more_time (Nat.le_max_right n n') hn' ho']

/-- Two expressions of which the second takes one step of time more come to the same ends. -/
theorem evaluates_iff_of_step {e e' : Expr} {m : Machine}
    (h : ∀ n, evaluate (n + 1) e m = evaluate (n + 2) e' m) (o : Outcome Value) :
    Evaluates e m o ↔ Evaluates e' m o := by
  constructor
  · rintro ⟨ho, n, hn⟩
    cases n with
    | zero => exact absurd hn.symm ho
    | succ n => exact ⟨ho, n + 2, h n ▸ hn⟩
  · rintro ⟨ho, n, hn⟩
    exact ⟨ho, n + 1, (h n).trans (evaluate_more_time (Nat.le_add_right n 2) hn ho)⟩

/-! ## The two forms -/

/-- What an assignment to a variable of the type does once its value has come to `v`. -/
def conclude (op : AssignOperator) (x : String) (type : ValueType) (v : Value) : Run Value := do
  if v.isFault then pure v
  else
    let result := combine op (← read fun m => m.scopes.get x) v
    if result.isFault then pure result
    else if result.type? = some type then store x result
    else pure (.fault .wrongType)

variable {n : Nat} {op : Arithmetic} {x : String} {e : Expr} {b : Binding} {m : Machine} {type : ValueType}

/-- In the compound form, the operator is applied to the value of the variable and to the value. -/
theorem conclude_compound {v : Value} (hv : v.isFault = false) :
    conclude (.compound op) x type v m =
      conclude .plain x type (Value.binary (.arithmetic op) (m.scopes.get x) v) m := by
  have hcombine (current result : Value) : combine .plain current result = result := rfl
  have hcompound (current : Value) :
      combine (.compound op) current v = Value.binary (.arithmetic op) current v := rfl
  unfold conclude
  rw [if_neg (Bool.eq_false_iff.1 hv), Run.bind_apply, Run.read_apply]
  dsimp only
  rw [hcompound]
  by_cases hresult : (Value.binary (.arithmetic op) (m.scopes.get x) v).isFault = true
  · rw [if_pos hresult, if_pos hresult]
  · rw [if_neg hresult, if_neg hresult, Run.bind_apply, Run.read_apply]
    dsimp only
    rw [hcombine, if_neg hresult]

/-- The first operand of the expansion is the value that the variable has before the second one is evaluated. -/
theorem evaluate_name_binary (n : Nat) (op : BinaryOperator) (x : String) (e : Expr) (l₁ l₂ : Nat) (m : Machine) :
    evaluate (n + 1) (.binary op (.name x l₁) e l₂) m =
      (evaluate n e >>= fun v => pure (Value.binary op (m.scopes.get x) v)) m := by
  cases n <;> rfl

/-- Where the variable does not hold a fault, and `e` leaves its value alone, `x op= e` is the same computation as
`x = x op e` in one step of time more. -/
theorem compound_eq_expansion (hproper : ∀ b, m.scopes.binding? x = some b → b.value.isFault = false)
    (hsame : ∀ v m', evaluate n e m = .done v m' → m'.scopes.get x = m.scopes.get x) (l l₁ l₂ l₃ : Nat) :
    evaluate (n + 1) (.assign (.compound op) x e l) m =
      evaluate (n + 2) (.assign .plain x (.binary (.arithmetic op) (.name x l₁) e l₂) l₃) m := by
  show assignment (evaluate n) (.compound op) x e m =
    assignment (evaluate (n + 1)) .plain x (.binary (.arithmetic op) (.name x l₁) e l₂) m
  cases hx : m.scopes.binding? x with
  | none => rw [assignment_of_missing hx, assignment_of_missing hx]
  | some b =>
    cases hb : b.mutable with
    | false => rw [assignment_of_constant hx hb, assignment_of_constant hx hb]
    | true =>
      have hget : m.scopes.get x = b.value := by
        rw [Scopes.get, hx]
      have hleft : assignment (evaluate n) (.compound op) x e m =
          (evaluate n e >>= conclude (.compound op) x b.type) m := assignment_of_mutable hx hb
      have hright : assignment (evaluate (n + 1)) .plain x (.binary (.arithmetic op) (.name x l₁) e l₂) m =
          (evaluate (n + 1) (.binary (.arithmetic op) (.name x l₁) e l₂) >>= conclude .plain x b.type) m :=
        assignment_of_mutable hx hb
      rw [hleft, hright, Run.bind_apply, Run.bind_apply, evaluate_name_binary, Run.bind_apply]
      cases hv : evaluate n e m with
      | exhausted => rfl
      | raised err m' => rfl
      | done v m' =>
        show conclude (.compound op) x b.type v m' =
          conclude .plain x b.type (Value.binary (.arithmetic op) (m.scopes.get x) v) m'
        by_cases hfault : v.isFault = true
        · -- The compound form looks for this fault before it applies the operator.
          obtain ⟨f, rfl⟩ := Value.isFault_iff.1 hfault
          rw [hget, Value.binary_fault_right (hproper b hx)]
          rfl
        · rw [conclude_compound (Bool.eq_false_iff.2 hfault), hsame v m' hv]

/-- **Compound assignments are expanded.** Let programs that were read be run one after another on a fresh machine.
At every moment, and for every expression `e` that, if it comes to a value, leaves the value that `x` stands for as
it is, the assignment `x op= e` comes to the same end as `x = x op e`, or both come to none: to the same value or
fault, or the same raised error, on the same machine, with the same scopes and the same output. This holds also if
`x` stands for no variable, for a constant or for one that has no value yet, if `e` comes to a fault, and if the
result is not of the type of the variable. -/
theorem compound_assignments_expand (n : Nat) (ps : List Program) (out : Output)
    (hps : ∀ p ∈ ps, ∃ source file, Program.ofText source file = .ok p) (k : Nat) (op : Arithmetic) (x : String)
    (e : Expr) (hsame : ∀ v m', Evaluates e (sessionMoment n ps out k) (.done v m') →
      m'.scopes.get x = (sessionMoment n ps out k).scopes.get x) (l l₁ l₂ l₃ : Nat) (o : Outcome Value) :
    Evaluates (.assign (.compound op) x e l) (sessionMoment n ps out k) o ↔
      Evaluates (.assign .plain x (.binary (.arithmetic op) (.name x l₁) e l₂) l₃) (sessionMoment n ps out k) o := by
  have hmoment : (sessionMoment n ps out k).Typed :=
    (legal_actions hps n out).machine_typed (typed_initial out) k
  refine evaluates_iff_of_step (fun time => ?_) o
  exact compound_eq_expansion (fun b hb => (hmoment.scopes.binding? hb).not_fault)
    (fun v m' hv => hsame v m' (evaluates_done hv)) l l₁ l₂ l₃

/-- The call `f(x)`. -/
def doubledX : Expr := .call "f" [.name "x" 1] 1

/-- The machine after that program, where `x` is twelve. -/
def settingX : Machine :=
  { sessionMoment 20 [doubling] (.empty none) 100 with
    scopes := (sessionMoment 20 [doubling] (.empty none) 100).scopes.define "x" ⟨.int 12, .int, true⟩ }

/-- After the program that calls `f`, where `x` is four, `f(x)` leaves `x` alone, and `x += f(x)` comes to twelve as
`x = x + f(x)` does. -/
theorem adding_doubledX_expands :
    (∀ p ∈ [doubling], ∃ source file, Program.ofText source file = .ok p) ∧
    (∀ v m', Evaluates doubledX (sessionMoment 20 [doubling] (.empty none) 100) (.done v m') →
      m'.scopes.get "x" = (sessionMoment 20 [doubling] (.empty none) 100).scopes.get "x") ∧
    Evaluates (.assign .plain "x" (.binary (.arithmetic .add) (.name "x" 1) doubledX 1) 1)
      (sessionMoment 20 [doubling] (.empty none) 100) (.done (.int 12) settingX) := by
  have hread : ∀ p ∈ [doubling], ∃ source file, Program.ofText source file = .ok p := by
    intro p hp
    rw [List.mem_singleton.1 hp]
    exact ⟨_, _, ofText_doubling⟩
  have hvalue : Evaluates doubledX (sessionMoment 20 [doubling] (.empty none) 100)
      (.done (.int 8) (sessionMoment 20 [doubling] (.empty none) 100)) := by
    refine evaluates_done (n := 20) ?_
    cbv
  have hsame : ∀ v m', Evaluates doubledX (sessionMoment 20 [doubling] (.empty none) 100) (.done v m') →
      m'.scopes.get "x" = (sessionMoment 20 [doubling] (.empty none) 100).scopes.get "x" := by
    intro v m' hv
    cases hv.unique hvalue
    rfl
  have hcompound : Evaluates (.assign (.compound .add) "x" doubledX 1)
      (sessionMoment 20 [doubling] (.empty none) 100) (.done (.int 12) settingX) := by
    refine evaluates_done (n := 20) ?_
    cbv
  exact ⟨hread, hsame, (compound_assignments_expand 20 _ _ hread 100 .add "x" _ hsame 1 1 1 1 _).1 hcompound⟩

end Scriptling.Machine
