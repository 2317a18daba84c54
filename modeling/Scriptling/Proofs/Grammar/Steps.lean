import Scriptling.Grammar.Program

/-!
# Scriptling.Proofs.Grammar.Steps -- which way a parser goes

A parser goes its way by the next token. Each lemma here is one way of one parser, on any tokens that lead
there: what the parser comes to when it is given the token it expects, and to which other parsers it hands
over. `Ahead P ts` says that the next token, if there is one, is one of which `P` holds.
-/

set_option autoImplicit false

namespace Scriptling.Grammar

/-! ## The next token -/

/-- If there is a next token, `P` holds of it. -/
def Ahead (P : Token → Prop) (ts : List Lexeme) : Prop := ∀ l ∈ ts.head?, P l.token

variable {P Q : Token → Prop} {l : Lexeme} {ts mid rest : List Lexeme} {k n : Nat}

theorem ahead_nil : Ahead P [] := by
  intro l hl
  cases hl

theorem ahead_cons : Ahead P (l :: ts) ↔ P l.token := by
  simp [Ahead]

theorem Ahead.mono (h : Ahead P ts) (hPQ : ∀ t, P t → Q t) : Ahead Q ts :=
  fun l hl => hPQ _ (h l hl)

/-- Either the next token is the given one, or it is not. -/
theorem ahead_or (t : Token) (ts : List Lexeme) :
    Ahead (· ≠ t) ts ∨ ∃ line rest, ts = ⟨t, line⟩ :: rest := by
  cases ts with
  | nil => exact .inl ahead_nil
  | cons l ts =>
    by_cases hl : l.token = t
    · exact .inr ⟨l.line, ts, by rw [← hl]⟩
    · exact .inl (ahead_cons.2 hl)

/-! ## Bounds on the tokens -/

/-- A token that is read takes one from the bound. -/
theorem bound_cons (h : (l :: ts).length ≤ n) : ∃ m, n = m + 1 ∧ ts.length ≤ m := by
  obtain ⟨m, rfl⟩ := Nat.exists_eq_add_of_le' h
  exact ⟨m + ts.length, by rw [List.length_cons]; omega, by omega⟩

theorem bound_append (h : (ts ++ rest).length ≤ n) : rest.length ≤ n := by
  rw [List.length_append] at h
  omega

/-! ## Single steps -/

section Laws

variable {α β : Type} {p : Parser α} {f : α → Parser β} {a : α}

theorem bind_ok (h : p ts = .ok a mid) : (p >>= f) ts = f a mid := by
  show EStateM.bind p f ts = _
  unfold EStateM.bind
  rw [h]

theorem bind_error {e : SyntaxError} (h : p ts = .error e rest) :
    (p >>= f) ts = .error e rest := by
  show EStateM.bind p f ts = _
  unfold EStateM.bind
  rw [h]

theorem map_ok {g : α → β} (h : p ts = .ok a mid) : (g <$> p) ts = .ok (g a) mid := by
  show EStateM.map g p ts = _
  unfold EStateM.map
  rw [h]

theorem map_error {g : α → β} {e : SyntaxError} (h : p ts = .error e rest) :
    (g <$> p) ts = .error e rest := by
  show EStateM.map g p ts = _
  unfold EStateM.map
  rw [h]

theorem expect_self (t : Token) (x : Expected) (line : Nat) (ts : List Lexeme) :
    expect t x (⟨t, line⟩ :: ts) = .ok line ts := by
  rw [expect, if_pos rfl]

theorem accept_self (t : Token) (line : Nat) (ts : List Lexeme) :
    accept t (⟨t, line⟩ :: ts) = .ok true ts := by
  rw [accept, if_pos rfl]

theorem accept_other {t : Token} (h : Ahead (· ≠ t) ts) : accept t ts = .ok false ts := by
  cases ts with
  | nil => rfl
  | cons l ts =>
    rw [accept, if_neg (ahead_cons.1 h)]

theorem typeName_self {t : ValueType} {allowVoid : Bool} (h : t ≠ .void ∨ allowVoid = true)
    (line : Nat) (ts : List Lexeme) : typeName allowVoid (⟨.typeName t, line⟩ :: ts) = .ok t ts := by
  rw [typeName, if_neg]
  rintro ⟨hvoid, hallow⟩
  rcases h with h | h
  · exact h hvoid
  · exact hallow h

theorem identifier_self (x : String) (line : Nat) (ts : List Lexeme) :
    identifier (⟨.identifier x, line⟩ :: ts) = .ok (x, line) ts := rfl

/-- A list that is not at its end begins with an item. -/
theorem list_of_ahead {item : Parser α} (h : Ahead (· ≠ .mark .closeParen) ts) :
    list item n ts = (do
      let x ← item
      let xs ← listRest item n
      pure (x :: xs) : Parser (List α)) ts := by
  cases ts with
  | nil => rfl
  | cons l ts =>
    rcases l with ⟨t, line⟩
    have ht : t ≠ .mark .closeParen := ahead_cons.1 h
    cases t with
    | mark m =>
      cases m with
      | closeParen => exact absurd rfl ht
      | _ => rfl
    | _ => rfl

end Laws

/-! ## Expressions -/

/-- A chain ends where no operator of its tier follows. -/
theorem chain_stop {operand : Parser Expr} {left : Expr}
    (h : Ahead (fun t => ∀ op, t = .operator op → op.tier ≠ k) ts) :
    chain operand k n left ts = .ok left ts := by
  cases n with
  | zero => rfl
  | succ n =>
    cases ts with
    | nil => rfl
    | cons l ts =>
      rcases l with ⟨t, line⟩
      cases t with
      | operator op => exact if_neg (ahead_cons.1 h op rfl)
      | _ => rfl

/-- A chain goes on with an operator of its tier. -/
theorem chain_operator {operand : Parser Expr} {left : Expr} {op : BinaryOperator} {line : Nat}
    (hop : op.tier = k) :
    chain operand k (n + 1) left (⟨.operator op, line⟩ :: ts) = (do
      let right ← operand
      chain operand k n (.binary op left right left.line) : Parser Expr) ts :=
  if_pos hop

/-- A chain takes in another operand. -/
theorem chain_more {operand : Parser Expr} {left right : Expr} {op : BinaryOperator} {line : Nat}
    (hop : op.tier = k) (hright : operand ts = .ok right rest) :
    chain operand k (n + 1) left (⟨.operator op, line⟩ :: ts) =
      chain operand k n (.binary op left right left.line) rest :=
  (chain_operator hop).trans (bind_ok hright)

section Expressions

variable {inner : Parser Expr}

/-- A name without an opening parenthesis after it is no call. -/
theorem primary_name {x : String} {line : Nat} (h : Ahead (· ≠ .mark .openParen) ts) :
    primary inner n (⟨.identifier x, line⟩ :: ts) = .ok (.name x line) ts := by
  cases ts with
  | nil => rfl
  | cons l ts =>
    rcases l with ⟨t, line'⟩
    have ht : t ≠ .mark .openParen := ahead_cons.1 h
    cases t with
    | mark m =>
      cases m with
      | openParen => exact absurd rfl ht
      | _ => rfl
    | _ => rfl

/-- A prefix operator stands before an operand. -/
theorem unary_operator {op : UnaryOperator} (h : l.token.unary? = some op) :
    unary inner n (l :: ts) = ((fun e => Expr.unary op e l.line) <$> unary inner n) ts := by
  rw [unary, h]
  dsimp only
  cases hr : unary inner n ts with
  | ok e rest => rw [map_ok hr]
  | error e rest => rw [map_error hr]

/-- Anything else is no prefix operator. -/
theorem unary_primary (h : Ahead (fun t => t.unary? = none) ts) :
    unary inner n ts = primary inner n ts := by
  cases ts with
  | nil => rfl
  | cons l ts =>
    have hl : l.token.unary? = none := ahead_cons.1 h
    rw [unary, hl]

end Expressions

/-! ## Statements -/

section Statements

variable {expr : Parser Expr} {stmt : Parser Statement}

/-- A block that is not at its end goes on with a statement. -/
theorem statementsRest_of_ne (hl : l.token ≠ .mark .closeBrace) :
    statementsRest stmt (k + 1) (l :: ts) = (do
      let s ← stmt
      let ss ← statementsRest stmt k
      pure (s :: ss) : Parser (List Statement)) (l :: ts) := by
  rcases l with ⟨t, line⟩
  cases t with
  | mark m =>
    cases m with
    | closeBrace => exact absurd rfl hl
    | _ => rfl
  | _ => rfl

/-- `return` without a semicolon after it goes on with a value. -/
theorem returnStatement_of_ahead {line : Nat} (h : Ahead (· ≠ .mark .semicolon) ts) :
    returnStatement expr line ts = (do
      let e ← expr
      let _ ← expect (.mark .semicolon) .semicolonAfterReturn
      pure (.return_ (some e) line) : Parser Statement) ts := by
  cases ts with
  | nil => rfl
  | cons l ts =>
    rcases l with ⟨t, line'⟩
    have ht : t ≠ .mark .semicolon := ahead_cons.1 h
    cases t with
    | mark m =>
      cases m with
      | semicolon => exact absurd rfl ht
      | _ => rfl
    | _ => rfl

/-- A conditional ends where no branch follows. -/
theorem branches_done (h : Ahead (fun t => t ≠ .keyword .elif_ ∧ t ≠ .keyword .else_) ts) (k : Nat) :
    branches expr stmt n k ts = .ok .done ts := by
  cases k with
  | zero => rfl
  | succ k =>
    cases ts with
    | nil => rfl
    | cons l ts =>
      rcases l with ⟨t, line⟩
      have ht := ahead_cons.1 h
      cases t with
      | keyword w =>
        cases w with
        | elif_ => exact absurd rfl ht.1
        | else_ => exact absurd rfl ht.2
        | _ => rfl
      | _ => rfl

/-- A name, a colon and `func` begin a function. -/
theorem statementPart_function (x : String) (line colonLine funcLine : Nat) (ts : List Lexeme) :
    statementPart expr stmt n (⟨.identifier x, line⟩ :: ⟨.mark .colon, colonLine⟩ ::
      ⟨.keyword .func_, funcLine⟩ :: ts) = (.func <$> functionRest stmt n x line) ts := rfl

/-- A name and a colon begin a variable otherwise. -/
theorem statementPart_variable {x : String} {line colonLine : Nat}
    (h : Ahead (· ≠ .keyword .func_) ts) :
    statementPart expr stmt n (⟨.identifier x, line⟩ :: ⟨.mark .colon, colonLine⟩ :: ts) =
      (.var <$> variableRest expr x line) ts := by
  show named expr stmt n _ = _
  rw [named, bind_ok (identifier_self _ _ _)]
  dsimp only
  rw [bind_ok (expect_self _ _ _ _), bind_ok (accept_other h)]
  rfl

end Statements

/-! ## Programs -/

section Programs

variable {line : Nat} {done : List Statement} {errors : List SyntaxError}

/-- A round that reads a statement. -/
theorem statements_ok {s : Statement} (h : statement (n + 1) ts = .ok s rest) :
    statements line (n + 1) done errors ts = statements line n (s :: done) errors rest := by
  cases ts with
  | nil => cases h
  | cons l ts =>
    rw [statements]
    · rw [h]
    · nofun

/-- A round that fails, and drops tokens. -/
theorem statements_error {e : SyntaxError} (hts : ts ≠ [])
    (h : statement (n + 1) ts = .error e rest) :
    statements line (n + 1) done errors ts =
      statements line n done (e.locate line :: errors) (synchronize rest) := by
  rw [statements]
  · rw [h]
  · exact hts

end Programs

end Scriptling.Grammar
