import Scriptling.Proofs.Grammar.Alike.Basic
import Scriptling.Proofs.Grammar.Soundness

/-!
# Scriptling.Proofs.Grammar.Alike.Expression -- expressions are read alike

One lemma for each parser of the grammar of expressions, about any two parsers of whole expressions that are
alike; the knot is tied by induction on the bound (`alike_expression`). The second parser has a bound that is
greater by `d`, so its recursion follows that of the first one.
-/

set_option autoImplicit false

namespace Scriptling.Grammar

variable {f : Nat → Nat} {d k n : Nat}

/-! ## Single tokens -/

theorem alike_expect (t : Token) (x : Expected) : Alike f d n f (expect t x) (expect t x) := by
  intro ts hts
  cases ts with
  | nil => exact .nil rfl rfl
  | cons l ts =>
    by_cases hl : l.token = t
    · rw [expect, if_pos hl]
      exact .take fun _ => if_pos hl
    · rw [expect, if_neg hl]
      exact .stop rfl fun _ => if_neg hl

theorem alike_accept (t : Token) : Alike f d n id (accept t) (accept t) := by
  intro ts _
  rcases ahead_or t ts with hts | ⟨line, rest, rfl⟩
  · rw [accept_other hts]
    exact .stay rfl fun ts' hts' => accept_other (hts'.ahead hts)
  · rw [accept_self]
    exact .take fun _ => accept_self _ _ _

theorem alike_identifier :
    Alike f d n (fun x => (x.1, f x.2)) identifier identifier := by
  intro ts _
  cases ts with
  | nil => exact .nil rfl rfl
  | cons l ts =>
    rcases l with ⟨t, line⟩
    cases t with
    | identifier x => exact .take fun _ => rfl
    | _ => exact .stop rfl fun _ => rfl

theorem alike_typeName (allowVoid : Bool) :
    Alike f d n id (typeName allowVoid) (typeName allowVoid) := by
  intro ts _
  cases ts with
  | nil => exact .nil rfl rfl
  | cons l ts =>
    rcases l with ⟨t, line⟩
    cases t with
    | typeName t =>
      by_cases ht : t = .void ∧ ¬ allowVoid
      · rw [typeName, if_pos ht]
        exact .stop rfl fun _ => if_pos ht
      · rw [typeName, if_neg ht]
        exact .take fun _ => if_neg ht
    | _ => exact .stop rfl fun _ => rfl

/-! ## Lists -/

section Lists

variable {α β : Type} {g : α → β} {item : Parser α} {item' : Parser β}
  (hitem : Alike f d n g item item')

include hitem

theorem alike_listRest (hk : k ≤ n) :
    Alike f d k (List.map g) (listRest item k) (listRest item' (d + k)) := by
  induction k with
  | zero => exact alike_zero rfl (by cases d <;> rfl)
  | succ k ih =>
    intro ts hts
    cases ts with
    | nil => exact .nil rfl rfl
    | cons l ts =>
      rcases l with ⟨t, line⟩
      have hlength : ts.length ≤ k := Nat.le_of_succ_le_succ hts
      cases t with
      | mark m =>
        cases m with
        | comma =>
          have hrest : Alike f d k (List.map g)
              (do let x ← item; let xs ← listRest item k; pure (x :: xs))
              (do let x ← item'; let xs ← listRest item' (d + k); pure (x :: xs)) :=
            (hitem.le (Nat.le_of_succ_le hk)).bind fun x => (ih (Nat.le_of_succ_le hk)).bind fun xs =>
              alike_pure _ _ rfl
          exact (hrest ts hlength).next fun _ => rfl
        | closeParen => exact .take fun _ => rfl
        | _ => exact .stop rfl fun _ => rfl
      | _ => exact .stop rfl fun _ => rfl

theorem alike_list : Alike f d n (List.map g) (list item n) (list item' (d + n)) := by
  intro ts hts
  rcases ahead_or (.mark .closeParen) ts with hahead | ⟨line, rest, rfl⟩
  · have hitems : Alike f d n (List.map g)
        (do let x ← item; let xs ← listRest item n; pure (x :: xs))
        (do let x ← item'; let xs ← listRest item' (d + n); pure (x :: xs)) :=
      hitem.bind fun x => (alike_listRest hitem le_rfl).bind fun xs => alike_pure _ _ rfl
    rw [list_of_ahead hahead]
    exact (hitems ts hts).congr fun ts' hts' => list_of_ahead (hts'.ahead hahead)
  · exact .take fun _ => rfl

end Lists

/-! ## Expressions -/

/-- The parser, on the tokens after a name. -/
def afterName {α : Type} (x : String) (line : Nat) (p : Parser α) : Parser α :=
  fun ts => p (⟨.identifier x, line⟩ :: ts)

/-- What follows a target: an assignment operator and a value, or nothing. -/
def assignTo (inner : Parser Expr) (target : Expr) : Parser Expr := fun ts =>
  match ts with
  | ⟨.assign op, opLine⟩ :: rest =>
    match target with
    | .name x line => (do
        let value ← inner
        pure (.assign op x value line) : Parser Expr) rest
    | _ => .error ⟨.invalidTarget, opLine⟩ (⟨.assign op, opLine⟩ :: rest)
  | ts => .ok target ts

theorem assignment_eq (inner : Parser Expr) (n : Nat) :
    assignment inner n = tier inner n BinaryOperator.loosest >>= assignTo inner := rfl

section Expressions

variable {inner inner' : Parser Expr} (hinner : Alike f d n (Expr.reline f) inner inner')

include hinner

theorem alike_castRest (line : Nat) :
    Alike f d n (Expr.reline f) (castRest inner line) (castRest inner' (f line)) :=
  (alike_expect _ _).bind fun _ => (alike_typeName _).bind fun _ => (alike_expect _ _).bind fun _ =>
    (alike_expect _ _).bind fun _ => hinner.bind fun _ => (alike_expect _ _).bind fun _ =>
      alike_pure _ _ rfl

/-- A name and a call of it. The token after the name is looked at, but it is the same for both. -/
theorem alike_primary_name (x : String) (line : Nat) :
    Alike f d n (Expr.reline f) (afterName x line (primary inner n))
      (afterName x (f line) (primary inner' (d + n))) := by
  intro ts hts
  rcases ahead_or (.mark .openParen) ts with hahead | ⟨openLine, rest, rfl⟩
  · rw [afterName, primary_name hahead]
    exact .stay rfl fun ts' hts' => primary_name (hts'.ahead hahead)
  · have hcall : Alike f d n (Expr.reline f)
        (do let arguments ← list inner n; pure (.call x arguments line))
        (do let arguments ← list inner' (d + n); pure (.call x arguments (f line))) :=
      (alike_list hinner).bind fun args => alike_pure _ _ (by
        rw [Expr.reline, Expr.relineAll_eq_map])
    exact ((hcall rest (Nat.le_of_succ_le hts)).next fun _ => rfl).le (Nat.le_succ _)

theorem alike_primary :
    Alike f d (n + 1) (Expr.reline f) (primary inner n) (primary inner' (d + n)) := by
  intro ts hts
  cases ts with
  | nil => exact .nil rfl rfl
  | cons l ts =>
    rcases l with ⟨t, line⟩
    have hlength : ts.length ≤ n := Nat.le_of_succ_le_succ hts
    cases t with
    | identifier x => exact (alike_primary_name hinner x line ts hlength).next fun _ => rfl
    | mark m =>
      cases m with
      | openParen =>
        have hgroup : Alike f d n (Expr.reline f)
            (do
              let e ← inner
              let _ ← expect (.mark .closeParen) .closeParen
              pure (.group e line))
            (do
              let e ← inner'
              let _ ← expect (.mark .closeParen) .closeParen
              pure (.group e (f line))) :=
          hinner.bind fun _ => (alike_expect _ _).bind fun _ => alike_pure _ _ rfl
        exact (hgroup ts hlength).next fun _ => rfl
      | _ => exact .stop rfl fun _ => rfl
    | keyword w =>
      cases w with
      | cast_ => exact (alike_castRest hinner line ts hlength).next fun _ => rfl
      | _ => exact .stop rfl fun _ => rfl
    | integer | float | bool | string | char => exact .take fun _ => rfl
    | _ => exact .stop rfl fun _ => rfl

theorem alike_unary :
    Alike f d (n + 1) (Expr.reline f) (unary inner n) (unary inner' (d + n)) := by
  intro ts
  induction ts with
  | nil =>
    intro hts
    rw [unary]
    exact (alike_primary hinner [] hts).congr fun ts' hts' => by
      rw [sameNext_nil.1 hts', unary]
  | cons l ts ih =>
    intro hts
    cases hop : l.token.unary? with
    | none =>
      have hahead : Ahead (fun t => t.unary? = none) (l :: ts) := ahead_cons.2 hop
      rw [unary_primary hahead]
      exact (alike_primary hinner _ hts).congr fun ts' hts' => unary_primary (hts'.ahead hahead)
    | some op =>
      have hoperand := (ih (Nat.le_of_succ_le hts)).map (h := Expr.reline f)
        (u := fun e => .unary op e l.line) (v := fun e => .unary op e (f l.line)) fun _ => rfl
      rw [unary_operator hop]
      exact (hoperand.next fun _ => unary_operator (l := l.reline f) hop).le (Nat.le_succ _)

omit hinner in
/-- Operands are joined to the left one in both readings, on its line. -/
theorem alike_chain {operand operand' : Parser Expr} (t : Nat)
    (hoperand : Alike f d n (Expr.reline f) operand operand') (hk : k ≤ n) (left : Expr) :
    Alike f d k (Expr.reline f) (chain operand t k left)
      (chain operand' t (d + k) (left.reline f)) := by
  induction k generalizing left with
  | zero => exact alike_zero rfl (chain_stop ahead_nil)
  | succ k ih =>
    intro ts hts
    by_cases hahead : Ahead (fun t' => ∀ op, t' = .operator op → op.tier ≠ t) ts
    · rw [chain_stop hahead]
      exact .stay rfl fun ts' hts' => chain_stop (hts'.ahead hahead)
    · cases ts with
      | nil => exact absurd ahead_nil hahead
      | cons l ts =>
        rcases l with ⟨t', line⟩
        simp only [ahead_cons, not_forall, not_not] at hahead
        obtain ⟨op, rfl, hop⟩ := hahead
        have hmore : Alike f d k (Expr.reline f)
            (do
              let right ← operand
              chain operand t k (.binary op left right left.line))
            (do
              let right ← operand'
              chain operand' t (d + k) (.binary op (left.reline f) right (f left.line))) :=
          (hoperand.le (Nat.le_of_succ_le hk)).bind fun right =>
            ih (Nat.le_of_succ_le hk) (.binary op left right left.line)
        rw [chain_operator hop]
        refine (hmore ts (Nat.le_of_succ_le_succ hts)).next fun rest => ?_
        refine (chain_operator hop).trans ?_
        rw [Expr.line_reline]
        rfl

theorem alike_assignTo (target : Expr) :
    Alike f d n (Expr.reline f) (assignTo inner target) (assignTo inner' (target.reline f)) := by
  intro ts hts
  cases ts with
  | nil => exact .nil rfl rfl
  | cons l ts =>
    rcases l with ⟨t, line⟩
    cases t with
    | assign op =>
      cases target with
      | name x nameLine =>
        have hvalue : Alike f d n (Expr.reline f)
            (do let value ← inner; pure (.assign op x value nameLine))
            (do let value ← inner'; pure (.assign op x value (f nameLine))) :=
          hinner.bind fun _ => alike_pure _ _ rfl
        exact ((hvalue ts (Nat.le_of_succ_le hts)).next fun _ => rfl).le (Nat.le_succ _)
      | _ => exact .stop rfl fun _ => rfl
    | _ => exact .stop rfl fun _ => rfl

variable (hreads : Reads inner Expr.Shaped Expr.written)

include hreads

theorem alike_tier (k : Nat) :
    Alike f d (n + 1) (Expr.reline f) (tier inner n k) (tier inner' (d + n) k) := by
  induction k with
  | zero => exact alike_unary hinner
  | succ k ih =>
    -- The left operand has taken a token, so the bound of the chain suffices.
    have hprogress : Progresses (tier inner n k) :=
      (reads_tier hreads n k).progresses fun e _ => e.startsOn_written.ne_nil
    exact ih.bindNext hprogress fun left =>
      alike_chain (k + 1) (ih.le (Nat.le_succ n)) le_rfl left

theorem alike_assignment :
    Alike f d (n + 1) (Expr.reline f) (assignment inner n) (assignment inner' (d + n)) := by
  have hprogress : Progresses (tier inner n BinaryOperator.loosest) :=
    (reads_tier hreads n _).progresses fun e _ => e.startsOn_written.ne_nil
  rw [assignment_eq, assignment_eq]
  exact (alike_tier hinner hreads _).bindNext hprogress fun target => alike_assignTo hinner target

/-- Tiers that begin with a name take the name in any case. -/
theorem alike_tier_name (x : String) (line : Nat) (k : Nat) :
    Alike f d n (Expr.reline f) (afterName x line (tier inner n k))
      (afterName x (f line) (tier inner' (d + n) k)) := by
  induction k with
  | zero => exact alike_primary_name hinner x line
  | succ k ih =>
    exact ih.bind fun left =>
      alike_chain (k + 1) ((alike_tier hinner hreads k).le (Nat.le_succ n)) le_rfl left

theorem alike_assignment_name (x : String) (line : Nat) :
    Alike f d n (Expr.reline f) (afterName x line (assignment inner n))
      (afterName x (f line) (assignment inner' (d + n))) :=
  (alike_tier_name hinner hreads x line _).bind fun target => alike_assignTo hinner target

end Expressions

/-- Without tokens there is no expression, whatever the bound. -/
theorem expression_nil (n : Nat) : expression n [] = unexpected .expression [] := by
  cases n <;> rfl

/-- **Expressions are read alike** where the tokens begin alike, whatever the lines and the bound. -/
theorem alike_expression (n : Nat) :
    Alike f d n (Expr.reline f) (expression n) (expression (d + n)) := by
  induction n with
  | zero => exact alike_zero rfl (expression_nil d)
  | succ n ih => exact alike_assignment ih (reads_expression n)

/-- What begins with a name is read alike after the name. -/
theorem alike_expression_name (x : String) (line : Nat) (n : Nat) :
    Alike f d n (Expr.reline f) (afterName x line (expression (n + 1)))
      (afterName x (f line) (expression (d + (n + 1)))) :=
  alike_assignment_name (alike_expression n) (reads_expression n) x line

end Scriptling.Grammar
