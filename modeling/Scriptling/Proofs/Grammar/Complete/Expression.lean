import Scriptling.Proofs.Grammar.Soundness
import Scriptling.Proofs.Grammar.Steps
import Scriptling.Proofs.Grammar.Words

/-!
# Scriptling.Proofs.Grammar.Complete.Expression -- written expressions are read back

The parser of expressions reads back every shaped tree from every way to write it, and stops where the tree
ends (`rereads_expression`). It can only stop there if what comes next does not go on with the tree: an
operator that binds as tightly, or an opening parenthesis after a name (`Stops`).

As for soundness there is one lemma for each parser of the grammar, about any parser of whole expressions
that it is given; the knot is tied by induction on the bound. The loop that joins operands from the left is
run along the left operands of the tree (`tier_eq_chain`).
-/

set_option autoImplicit false

namespace Scriptling

/-- After an expression that binds as loosely as `k`, the token is taken for a part of it. -/
def Token.Extends (k : Nat) : Token → Prop
  | .mark .openParen => True
  | .operator op => op.tier ≤ k
  | .assign _ => BinaryOperator.loosest < k
  | _ => False

namespace Grammar

/-! ## Where a tree ends -/

/-- An expression that binds as loosely as `k` ends here. -/
abbrev Stops (k : Nat) : List Lexeme → Prop := Ahead fun t => ¬ t.Extends k

/-- A whole expression ends here. -/
abbrev ExprEnds : List Lexeme → Prop := Stops (BinaryOperator.loosest + 1)

/-- There are no further branches of a conditional. -/
abbrev NoBranch : List Lexeme → Prop :=
  Ahead fun t => t ≠ .keyword .elif_ ∧ t ≠ .keyword .else_

/-- Whatever comes next. -/
abbrev Anything : List Lexeme → Prop := fun _ => True

variable {P Q : Token → Prop} {l : Lexeme} {ts rest : List Lexeme} {j k n : Nat}

/-- What starts with one of some tokens has one of them ahead. -/
theorem StartsWith.ahead {w : Language Lexeme} (h : StartsWith P w) {front : List Lexeme}
    (hfront : front ∈ w) (rest : List Lexeme) : Ahead P (front ++ rest) := by
  obtain ⟨l, tail, rfl, hl⟩ := h front hfront
  exact ahead_cons.2 hl

/-- What goes on with a tight expression goes on with a loose one. -/
theorem Stops.le (h : Stops k ts) (hjk : j ≤ k) : Stops j ts := by
  refine Ahead.mono h fun t ht hext => ht ?_
  cases t with
  | operator op => exact le_trans hext hjk
  | assign op => exact lt_of_lt_of_le hext hjk
  | mark m => cases m <;> exact hext
  | _ => exact hext

/-! ## Reading back -/

/-- The parser reads back, from at most `n` tokens, all of which `P` holds as `w` writes it, if `F` holds of
what follows. -/
def Rereads {α : Type} (n : Nat) (p : Parser α) (P : α → Prop) (w : α → Language Lexeme)
    (F : List Lexeme → Prop) : Prop :=
  ∀ a front rest, P a → front ∈ w a → F rest → (front ++ rest).length ≤ n →
    p (front ++ rest) = .ok a rest

/-! ## Lists -/

section Lists

variable {α : Type} {item : Parser α} {P : α → Prop} {w : α → Language Lexeme}
  {F : List Lexeme → Prop} {N : Nat}

/-- After an item there is a comma or the closing parenthesis. -/
theorem startsWith_following (ws : List (Language Lexeme)) :
    StartsWith (fun t => t = .mark .comma ∨ t = .mark .closeParen)
      (following ws * (Token.mark .closeParen).word) := by
  intro ls hls
  cases ws with
  | nil =>
    rw [following, one_mul, mem_word] at hls
    obtain ⟨n, rfl⟩ := hls
    exact ⟨_, _, rfl, .inr rfl⟩
  | cons w ws =>
    rw [following, mul_assoc, mul_assoc, mem_word_mul] at hls
    obtain ⟨n, tail, -, rfl⟩ := hls
    exact ⟨_, _, rfl, .inl rfl⟩

theorem listRest_rereads (hitem : Rereads N item P w F)
    (hF : ∀ ts, Ahead (fun t => t = .mark .comma ∨ t = .mark .closeParen) ts → F ts)
    {xs : List α} (hxs : ∀ x ∈ xs, P x) {front : List Lexeme}
    (hfront : front ∈ following (xs.map w) * (Token.mark .closeParen).word)
    (hn : (front ++ rest).length ≤ n) (hnN : n ≤ N) :
    listRest item n (front ++ rest) = .ok xs rest := by
  -- On the items: each one takes a comma from the bound.
  induction xs generalizing front n with
  | nil =>
    rw [List.map_nil, following, one_mul, mem_word] at hfront
    obtain ⟨line, rfl⟩ := hfront
    obtain ⟨m, rfl, -⟩ := bound_cons hn
    rfl
  | cons x xs ih =>
    rw [List.forall_mem_cons] at hxs
    rw [List.map_cons, following, mul_assoc, mul_assoc, mem_word_mul] at hfront
    obtain ⟨line, tail, htail, rfl⟩ := hfront
    obtain ⟨fx, hfx, fxs, hfxs, rfl⟩ := Language.mem_mul.1 htail
    rw [List.cons_append, List.append_assoc] at hn ⊢
    obtain ⟨m, rfl, hm⟩ := bound_cons hn
    have hends := hF _ ((startsWith_following (xs.map w)).ahead hfxs rest)
    have hx := hitem x fx _ hxs.1 hfx hends (by omega)
    have hrest := ih hxs.2 hfxs (bound_append hm) (by omega)
    show (item >>= fun x => _) (fx ++ (fxs ++ rest)) = _
    rw [bind_ok hx, bind_ok hrest]
    rfl

/-- A list of items that do not begin with the closing parenthesis is read back. -/
theorem list_rereads (hitem : Rereads N item P w F)
    (hF : ∀ ts, Ahead (fun t => t = .mark .comma ∨ t = .mark .closeParen) ts → F ts)
    (hstart : ∀ x, StartsWith (· ≠ .mark .closeParen) (w x)) :
    Rereads N (list item N) (fun xs => ∀ x ∈ xs, P x)
      (fun xs => separated (xs.map w) * (Token.mark .closeParen).word) Anything := by
  intro xs front rest hxs hfront _ hN
  dsimp only at hxs hfront
  cases xs with
  | nil =>
    rw [List.map_nil, separated, one_mul, mem_word] at hfront
    obtain ⟨line, rfl⟩ := hfront
    rfl
  | cons x xs =>
    rw [List.forall_mem_cons] at hxs
    rw [List.map_cons, separated, mul_assoc] at hfront
    obtain ⟨fx, hfx, fxs, hfxs, rfl⟩ := Language.mem_mul.1 hfront
    have hends := hF _ ((startsWith_following (xs.map w)).ahead hfxs rest)
    rw [List.append_assoc] at hN ⊢
    have hx := hitem x fx _ hxs.1 hfx hends hN
    have hrest := listRest_rereads hitem hF hxs.2 hfxs (bound_append hN) le_rfl
    rw [list_of_ahead ((hstart x).ahead hfx _), bind_ok hx, bind_ok hrest]
    rfl

end Lists

/-! ## Expressions -/

section Expressions

variable {inner : Parser Expr}

theorem exprEnds_of_ahead (h : Ahead (fun t => t = .mark .comma ∨ t = .mark .closeParen) ts) :
    ExprEnds ts := by
  refine h.mono fun t ht => ?_
  rcases ht with rfl | rfl <;> exact id

theorem Expr.startsWith_ne (e : Expr) : StartsWith (· ≠ .mark .closeParen) e.written :=
  e.startsWith_written.mono fun _ ht => ht.ne_closeParen

variable (hinner : Rereads n inner Expr.Shaped Expr.written ExprEnds)

include hinner

/-- Expressions without operators outside of parentheses, other than prefix operators. -/
theorem rereads_unary : ∀ e : Expr, ∀ front rest, e.Shaped → e.level = 0 → front ∈ e.written →
    Stops 0 rest → (front ++ rest).length ≤ n + 1 →
    unary inner n (front ++ rest) = .ok e rest
  | .literal v line, front, rest, _, _, hfront, _, _ => by
    rw [Expr.written, mem_on] at hfront
    subst hfront
    cases v <;> rfl
  | .name x line, front, rest, _, _, hfront, hrest, _ => by
    rw [Expr.written, mem_on] at hfront
    subst hfront
    exact primary_name (Ahead.mono hrest fun t ht heq => ht (heq ▸ trivial))
  | .group e line, front, rest, he, _, hfront, _, hn => by
    rw [Expr.Shaped] at he
    simp only [Expr.written, mul_assoc, mem_on_mul] at hfront
    obtain ⟨tail, htail, rfl⟩ := hfront
    obtain ⟨fe, hfe, close, hclose, rfl⟩ := Language.mem_mul.1 htail
    obtain ⟨closeLine, rfl⟩ := mem_word.1 hclose
    rw [List.cons_append, List.append_assoc] at hn ⊢
    have hinner' := hinner e fe _ he hfe (ahead_cons.2 id) (Nat.le_of_succ_le_succ hn)
    exact (bind_ok hinner').trans (bind_ok (expect_self _ _ _ _))
  | .call f args line, front, rest, he, _, hfront, _, hn => by
    rw [Expr.Shaped, Expr.shapedAll_iff] at he
    simp only [Expr.written, Expr.writtenAll_eq_map, mul_assoc, mem_on_mul, mem_word_mul] at hfront
    obtain ⟨_, ⟨openLine, fargs, hfargs, rfl⟩, rfl⟩ := hfront
    have hlist := list_rereads hinner (fun _ => exprEnds_of_ahead) Expr.startsWith_ne
    have hargs := hlist args fargs rest he hfargs trivial (by simp at hn ⊢; omega)
    exact bind_ok hargs
  | .cast t e line, front, rest, he, _, hfront, _, hn => by
    rw [Expr.Shaped] at he
    simp only [Expr.written, mul_assoc, mem_on_mul, mem_word_mul] at hfront
    obtain ⟨_, ⟨lessLine, _, ⟨typeLine, _, ⟨greaterLine, _, ⟨openLine, tail, htail, rfl⟩, rfl⟩, rfl⟩,
      rfl⟩, rfl⟩ := hfront
    obtain ⟨fe, hfe, close, hclose, rfl⟩ := Language.mem_mul.1 htail
    obtain ⟨closeLine, rfl⟩ := mem_word.1 hclose
    have hoperand := hinner e fe (⟨.mark .closeParen, closeLine⟩ :: rest) he.2 hfe (ahead_cons.2 id)
      (by simp at hn ⊢; omega)
    simp only [List.cons_append, List.append_assoc]
    show castRest inner line _ = _
    unfold castRest
    rw [bind_ok (expect_self _ _ _ _), bind_ok (typeName_self (.inl he.1) _ _),
      bind_ok (expect_self _ _ _ _), bind_ok (expect_self _ _ _ _), List.nil_append, bind_ok hoperand,
      bind_ok (expect_self _ _ _ _)]
    rfl
  | .unary op e line, front, rest, he, _, hfront, hrest, hn => by
    rw [Expr.Shaped] at he
    rw [Expr.written, mem_on_mul] at hfront
    obtain ⟨fe, hfe, rfl⟩ := hfront
    have hoperand := rereads_unary e fe rest he.1 he.2 hfe hrest (by simp at hn ⊢; omega)
    have hop : op.token.unary? = some op := by
      cases op <;> rfl
    exact (unary_operator hop).trans (map_ok hoperand)
  | .binary op l r line, _, _, _, hlevel, _, _, _ => absurd hlevel op.tier_pos.ne'
  | .assign op x e line, _, _, _, hlevel, _, _, _ => by
    cases hlevel

omit hinner in
/-- An expression that is tighter than a tier is the first operand of a chain. -/
theorem tier_eq_chain_of_le
    (hoperand : Rereads (n + 1) (tier inner n k) (fun e => e.Shaped ∧ e.level ≤ k) Expr.written
      (Stops k))
    {e : Expr} {front rest : List Lexeme} (he : e.Shaped) (hlevel : e.level ≤ k)
    (hfront : front ∈ e.written) (hrest : Stops k rest) (hn : (front ++ rest).length ≤ n + 1) :
    ∃ m, rest.length ≤ m ∧
      tier inner n (k + 1) (front ++ rest) = chain (tier inner n k) (k + 1) m e rest := by
  obtain ⟨t, tail, rfl⟩ := e.startsOn_written front hfront
  have hrestn : rest.length ≤ n := bound_append (Nat.le_of_succ_le_succ hn)
  exact ⟨n, hrestn, bind_ok (hoperand e _ rest ⟨he, hlevel⟩ hfront hrest hn)⟩

omit hinner in
/-- An expression of a tier comes out of the chain that the parser of the tier goes on with. That chain may
still take in more. -/
theorem tier_eq_chain (hk : k < BinaryOperator.loosest)
    (hoperand : Rereads (n + 1) (tier inner n k) (fun e => e.Shaped ∧ e.level ≤ k) Expr.written
      (Stops k)) :
    ∀ e : Expr, ∀ front rest, e.Shaped → e.level ≤ k + 1 → front ∈ e.written → Stops k rest →
      (front ++ rest).length ≤ n + 1 →
      ∃ m, rest.length ≤ m ∧
        tier inner n (k + 1) (front ++ rest) = chain (tier inner n k) (k + 1) m e rest
  | .binary op l r line, front, rest, he, hlevel, hfront, hrest, hn => by
    rcases Nat.le_or_eq_of_le_succ hlevel with htight | hop
    · exact tier_eq_chain_of_le hoperand he htight hfront hrest hn
    · -- The left operand comes out of a chain, which takes in the operator and the right operand.
      have hop : op.tier = k + 1 := hop
      rw [Expr.Shaped, hop] at he
      rw [Expr.written, Language.mem_iSup] at hfront
      obtain ⟨rfl, hfront⟩ := hfront
      rw [mul_assoc] at hfront
      obtain ⟨fl, hfl, tail, htail, rfl⟩ := Language.mem_mul.1 hfront
      obtain ⟨opLine, fr, hfr, rfl⟩ := mem_word_mul.1 htail
      rw [List.append_assoc, List.cons_append] at hn ⊢
      have hstops : Stops k (⟨.operator op, opLine⟩ :: (fr ++ rest)) :=
        ahead_cons.2 fun hle => by
          have hle : op.tier ≤ k := hle
          omega
      obtain ⟨m, hm, hleft⟩ :=
        tier_eq_chain hk hoperand l fl _ he.1 he.2.2.1 hfl hstops hn
      obtain ⟨m, rfl, hm'⟩ := bound_cons hm
      have hright : tier inner n k (fr ++ rest) = .ok r rest := by
        refine hoperand r fr rest ⟨he.2.1, Nat.le_of_lt_succ he.2.2.2⟩ hfr hrest ?_
        have htail := bound_append hn
        rw [List.length_cons] at htail
        omega
      exact ⟨m, bound_append hm', hleft.trans (chain_more hop hright)⟩
  | .assign op x e line, _, _, _, hlevel, _, _, _ => by
    have hlevel : BinaryOperator.loosest + 1 ≤ k + 1 := hlevel
    omega
  | .literal v line, _, _, he, _, hfront, hrest, hn =>
    tier_eq_chain_of_le hoperand he (Nat.zero_le k) hfront hrest hn
  | .name x line, _, _, he, _, hfront, hrest, hn =>
    tier_eq_chain_of_le hoperand he (Nat.zero_le k) hfront hrest hn
  | .group e line, _, _, he, _, hfront, hrest, hn =>
    tier_eq_chain_of_le hoperand he (Nat.zero_le k) hfront hrest hn
  | .call f args line, _, _, he, _, hfront, hrest, hn =>
    tier_eq_chain_of_le hoperand he (Nat.zero_le k) hfront hrest hn
  | .cast t e line, _, _, he, _, hfront, hrest, hn =>
    tier_eq_chain_of_le hoperand he (Nat.zero_le k) hfront hrest hn
  | .unary op e line, _, _, he, _, hfront, hrest, hn =>
    tier_eq_chain_of_le hoperand he (Nat.zero_le k) hfront hrest hn

theorem rereads_tier (hk : k ≤ BinaryOperator.loosest) :
    Rereads (n + 1) (tier inner n k) (fun e => e.Shaped ∧ e.level ≤ k) Expr.written (Stops k) := by
  induction k with
  | zero =>
    rintro e front rest ⟨he, hlevel⟩ hfront hrest hn
    exact rereads_unary hinner e front rest he (Nat.le_zero.1 hlevel) hfront hrest hn
  | succ k ih =>
    rintro e front rest ⟨he, hlevel⟩ hfront hrest hn
    have hoperand := ih (Nat.le_of_succ_le hk)
    obtain ⟨m, -, hchain⟩ :=
      tier_eq_chain hk hoperand e front rest he hlevel hfront (hrest.le k.le_succ) hn
    rw [hchain]
    refine chain_stop (Ahead.mono hrest fun t ht op heq hop => ht ?_)
    rw [heq]
    exact hop.le

theorem rereads_assignment :
    Rereads (n + 1) (assignment inner n) Expr.Shaped Expr.written ExprEnds := by
  intro e front rest he hfront hrest hn
  have htier := rereads_tier hinner (k := BinaryOperator.loosest) le_rfl
  by_cases hlevel : e.level ≤ BinaryOperator.loosest
  · -- No assignment operator follows.
    have hread := htier e front rest ⟨he, hlevel⟩ hfront (hrest.le (Nat.le_succ _)) hn
    refine (bind_ok hread).trans ?_
    cases rest with
    | nil => rfl
    | cons l rest =>
      rcases l with ⟨t, line⟩
      cases t with
      | assign op => exact absurd (Nat.lt_succ_self _) (ahead_cons.1 hrest)
      | _ => rfl
  · cases e with
    | assign op x v line =>
      rw [Expr.Shaped] at he
      simp only [Expr.written, mul_assoc, mem_on_mul, mem_word_mul] at hfront
      obtain ⟨_, ⟨opLine, fv, hfv, rfl⟩, rfl⟩ := hfront
      have hname : (Expr.name x line).Shaped ∧
          (Expr.name x line).level ≤ BinaryOperator.loosest := by
        rw [Expr.Shaped]
        exact ⟨trivial, Nat.zero_le _⟩
      have hwritten : [⟨.identifier x, line⟩] ∈ (Expr.name x line).written := by
        rw [Expr.written]
        exact Token.mem_on _ line
      have hstops : Stops BinaryOperator.loosest (⟨.assign op, opLine⟩ :: (fv ++ rest)) :=
        ahead_cons.2 (lt_irrefl BinaryOperator.loosest)
      have htarget := htier _ _ _ hname hwritten hstops hn
      have hvalue := hinner v fv rest he hfv hrest (by simp at hn ⊢; omega)
      exact (bind_ok htarget).trans (bind_ok hvalue)
    | binary op l r line => exact absurd op.tier_le_loosest hlevel
    | _ => exact absurd (Nat.zero_le _) hlevel

end Expressions

/-- **Expressions are complete.** A shaped expression is read back as it is written, from any tokens after
which no part of it can follow. -/
theorem rereads_expression (n : Nat) :
    Rereads n (expression n) Expr.Shaped Expr.written ExprEnds := by
  induction n with
  | zero =>
    intro e front rest _ hfront _ hn
    obtain ⟨t, tail, rfl⟩ := e.startsOn_written front hfront
    cases hn
  | succ n ih => exact rereads_assignment ih

end Grammar

end Scriptling
