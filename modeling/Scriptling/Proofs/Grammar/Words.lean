import Scriptling.Proofs.Grammar.Writing

/-!
# Scriptling.Proofs.Grammar.Words -- with which tokens trees are written

What a parser does next it decides by the next token, so it matters which tokens can stand where. The first
token of an expression, or of a statement, is one of a few; and some tokens, like the colon, do not occur in
expressions at all.

* `mem_word`, `mem_word_mul`, `mem_on_mul` -- a sequence of tokens, taken apart from the front.
* `StartsWith`, `Within` -- of the first token, and of all tokens, of every way to write something.
* `Expr.startsWith_written`, `Expr.within_written`, `Statement.startsWith_written`.
-/

set_option autoImplicit false

namespace Scriptling

namespace Grammar

/-! ## Taking apart -/

variable {t : Token} {n : Nat} {ls : List Lexeme} {v w : Language Lexeme}

theorem mem_on : ls ∈ t.on n ↔ ls = [⟨t, n⟩] := Iff.rfl

/-- A token can be written on any line. -/
theorem mem_word : ls ∈ t.word ↔ ∃ n, ls = [⟨t, n⟩] := by
  unfold Token.word
  rw [Language.mem_iSup]
  exact Iff.rfl

/-- The ways to write a token and then something, taken apart after the token. -/
theorem mem_on_mul : ls ∈ t.on n * w ↔ ∃ tail ∈ w, ls = ⟨t, n⟩ :: tail := by
  rw [Language.mem_mul]
  constructor
  · rintro ⟨as, rfl, tail, htail, rfl⟩
    exact ⟨tail, htail, rfl⟩
  · rintro ⟨tail, htail, rfl⟩
    exact ⟨[⟨t, n⟩], t.mem_on n, tail, htail, rfl⟩

theorem mem_word_mul : ls ∈ t.word * w ↔ ∃ n, ∃ tail ∈ w, ls = ⟨t, n⟩ :: tail := by
  rw [Language.mem_mul]
  constructor
  · rintro ⟨as, has, tail, htail, rfl⟩
    obtain ⟨n, rfl⟩ := mem_word.1 has
    exact ⟨n, tail, htail, rfl⟩
  · rintro ⟨n, tail, htail, rfl⟩
    exact ⟨[⟨t, n⟩], t.mem_word n, tail, htail, rfl⟩

/-! ## The first token -/

variable {P Q : Token → Prop}

/-- All ways to write something begin with a token of which `P` holds. -/
def StartsWith (P : Token → Prop) (w : Language Lexeme) : Prop :=
  ∀ ls ∈ w, ∃ l tail, ls = l :: tail ∧ P l.token

theorem startsWith_on (h : P t) (n : Nat) : StartsWith P (t.on n) := by
  rintro ls rfl
  exact ⟨⟨t, n⟩, [], rfl, h⟩

/-- Only the first of two parts matters, for there is a token in it. -/
theorem StartsWith.mul (h : StartsWith P v) (w : Language Lexeme) : StartsWith P (v * w) := by
  intro ls hls
  obtain ⟨as, has, bs, -, rfl⟩ := Language.mem_mul.1 hls
  obtain ⟨l, tail, rfl, hl⟩ := h as has
  exact ⟨l, tail ++ bs, rfl, hl⟩

theorem StartsWith.iSup {p : Prop} (h : StartsWith P w) : StartsWith P (⨆ _ : p, w) := by
  intro ls hls
  obtain ⟨-, hls⟩ := Language.mem_iSup.1 hls
  exact h ls hls

theorem StartsWith.mono (h : StartsWith P w) (hPQ : ∀ t, P t → Q t) : StartsWith Q w := by
  intro ls hls
  obtain ⟨l, tail, hl, hP⟩ := h ls hls
  exact ⟨l, tail, hl, hPQ _ hP⟩

/-! ## All tokens -/

/-- All ways to write something are made of tokens of which `P` holds. -/
def Within (P : Token → Prop) (w : Language Lexeme) : Prop := ∀ ls ∈ w, ∀ l ∈ ls, P l.token

theorem within_on (h : P t) (n : Nat) : Within P (t.on n) := by
  rintro ls rfl l hl
  rw [List.mem_singleton.1 hl]
  exact h

theorem within_word (h : P t) : Within P t.word := by
  intro ls hls
  obtain ⟨n, rfl⟩ := mem_word.1 hls
  exact within_on h n _ rfl

theorem within_one : Within P 1 := by
  rintro ls rfl l hl
  cases hl

theorem Within.mul (hv : Within P v) (hw : Within P w) : Within P (v * w) := by
  intro ls hls
  obtain ⟨as, has, bs, hbs, rfl⟩ := Language.mem_mul.1 hls
  exact List.forall_mem_append.2 ⟨hv as has, hw bs hbs⟩

theorem Within.iSup {p : Prop} (h : Within P w) : Within P (⨆ _ : p, w) := by
  intro ls hls
  obtain ⟨-, hls⟩ := Language.mem_iSup.1 hls
  exact h ls hls

theorem within_following {ws : List (Language Lexeme)} (hcomma : P (.mark .comma))
    (h : ∀ w ∈ ws, Within P w) : Within P (following ws) := by
  induction ws with
  | nil => exact within_one
  | cons w ws ih =>
    rw [List.forall_mem_cons] at h
    exact ((within_word hcomma).mul h.1).mul (ih h.2)

/-- Items with commas between them have the tokens of the items, and commas. -/
theorem within_separated {ws : List (Language Lexeme)} (hcomma : P (.mark .comma))
    (h : ∀ w ∈ ws, Within P w) : Within P (separated ws) := by
  cases ws with
  | nil => exact within_one
  | cons w ws =>
    rw [List.forall_mem_cons] at h
    exact h.1.mul (within_following hcomma h.2)

end Grammar

open Grammar

/-! ## Expressions -/

/-- An expression can begin with the token. -/
def Token.OpensExpr : Token → Prop
  | .keyword .cast_ | .mark .openParen => True
  | .operator op => op = .arithmetic .sub
  | .keyword _ | .mark _ | .typeName _ | .assign _ => False
  | _ => True

/-- The token can occur in an expression. -/
def Token.InExpr : Token → Prop
  | .keyword .cast_ | .mark .openParen | .mark .closeParen | .mark .comma => True
  | .keyword _ | .mark _ => False
  | _ => True

/-- A semicolon begins no expression. -/
theorem Token.OpensExpr.ne_semicolon {t : Token} (h : t.OpensExpr) : t ≠ .mark .semicolon := by
  rintro rfl
  exact h

/-- A parenthesis that closes a list begins no expression. -/
theorem Token.OpensExpr.ne_closeParen {t : Token} (h : t.OpensExpr) : t ≠ .mark .closeParen := by
  rintro rfl
  exact h

theorem Literal.opensExpr_token (v : Literal) : v.token.OpensExpr := by
  cases v <;> exact trivial

theorem Literal.inExpr_token (v : Literal) : v.token.InExpr := by
  cases v <;> exact trivial

theorem UnaryOperator.opensExpr_token (op : UnaryOperator) : op.token.OpensExpr := by
  cases op with
  | negate => exact rfl
  | _ => exact trivial

theorem UnaryOperator.inExpr_token (op : UnaryOperator) : op.token.InExpr := by
  cases op <;> exact trivial

/-- No expression begins with a token that does not open one. -/
theorem Expr.startsWith_written : ∀ e : Expr, StartsWith Token.OpensExpr e.written
  | .literal v n => by
    rw [written]
    exact startsWith_on v.opensExpr_token n
  | .name x n => by
    rw [written]
    exact startsWith_on trivial n
  | .group e n => by
    rw [written]
    exact ((startsWith_on trivial n).mul _).mul _
  | .call f args n => by
    rw [written]
    exact (((startsWith_on trivial n).mul _).mul _).mul _
  | .cast t e n => by
    rw [written]
    exact ((((((startsWith_on trivial n).mul _).mul _).mul _).mul _).mul _).mul _
  | .unary op e n => by
    rw [written]
    exact (startsWith_on op.opensExpr_token n).mul _
  | .binary op l r n => by
    rw [written]
    exact ((l.startsWith_written.mul _).mul _).iSup
  | .assign op x e n => by
    rw [written]
    exact ((startsWith_on trivial n).mul _).mul _

mutual

/-- Of the marks only parentheses and commas occur in an expression, and of the keywords only that of a cast. -/
theorem Expr.within_written : ∀ e : Expr, Within Token.InExpr e.written
  | .literal v n => by
    rw [written]
    exact within_on v.inExpr_token n
  | .name x n => by
    rw [written]
    exact within_on trivial n
  | .group e n => by
    rw [written]
    exact ((within_on trivial n).mul e.within_written).mul (within_word trivial)
  | .call f args n => by
    rw [written]
    have hargs := within_separated trivial (Expr.within_writtenAll args)
    exact (((within_on trivial n).mul (within_word trivial)).mul hargs).mul (within_word trivial)
  | .cast t e n => by
    rw [written]
    have htype := ((within_on (P := Token.InExpr) (t := .keyword .cast_) trivial n).mul
      (within_word (t := .operator (.comparison .less)) trivial)).mul
        (within_word (t := .typeName t) trivial)
    have hopen := (htype.mul (within_word (t := .operator (.comparison .greater)) trivial)).mul
      (within_word (t := .mark .openParen) trivial)
    exact (hopen.mul e.within_written).mul (within_word trivial)
  | .unary op e n => by
    rw [written]
    exact (within_on op.inExpr_token n).mul e.within_written
  | .binary op l r n => by
    rw [written]
    have hop : Within Token.InExpr (Token.operator op).word := within_word trivial
    exact ((l.within_written.mul hop).mul r.within_written).iSup
  | .assign op x e n => by
    rw [written]
    exact ((within_on trivial n).mul (within_word trivial)).mul e.within_written

theorem Expr.within_writtenAll :
    ∀ es : List Expr, ∀ w ∈ Expr.writtenAll es, Within Token.InExpr w
  | [], w, hw => by
    rw [Expr.writtenAll] at hw
    cases hw
  | e :: es, w, hw => by
    rw [Expr.writtenAll] at hw
    rcases List.mem_cons.1 hw with rfl | hw
    · exact e.within_written
    · exact Expr.within_writtenAll es w hw

end

/-! ## Statements -/

/-- A statement can begin with the token; in particular it is none of those that only go on with a
conditional or end a block. -/
def Token.OpensStatement : Token → Prop
  | .keyword .elif_ | .keyword .else_ | .mark .closeBrace => False
  | _ => True

/-- The brace that closes a block begins no statement. -/
theorem Token.OpensStatement.ne_closeBrace {t : Token} (h : t.OpensStatement) :
    t ≠ .mark .closeBrace := by
  rintro rfl
  exact h

/-- An expression can be a statement. -/
theorem Token.OpensExpr.opensStatement {t : Token} (h : t.OpensExpr) : t.OpensStatement := by
  cases t with
  | keyword k => cases k <;> first | exact trivial | exact h
  | mark m => cases m <;> first | exact trivial | exact h
  | _ => exact trivial

theorem Block.startsWith_written : ∀ b : Block, StartsWith (· = .mark .openBrace) b.written
  | ⟨_, n⟩ => by
    rw [written]
    have hbrace : StartsWith (· = .mark .openBrace) ((Token.mark .openBrace).on n) :=
      startsWith_on (by exact rfl) n
    exact (hbrace.mul _).mul _

/-- No statement begins with a token that goes on with a conditional or closes a block. -/
theorem Statement.startsWith_written (s : Statement) :
    StartsWith Token.OpensStatement s.written := by
  cases s with
  | var d =>
    rw [written]
    exact ((((startsWith_on trivial d.line).mul _).mul _).mul _).mul _
  | func f =>
    rcases f with ⟨name, result, params, body, n⟩
    rw [written, Function.written]
    exact (((((((startsWith_on trivial n).mul _).mul _).mul _).mul _).mul _).mul _).mul _
  | expr e n =>
    rw [written]
    have he := e.startsWith_written.mono fun _ ht => ht.opensStatement
    exact (he.mul _).iSup
  | print e es n =>
    rw [written]
    exact (((startsWith_on trivial n).mul _).mul _).mul _
  | block b =>
    rw [written]
    exact b.startsWith_written.mono fun t ht => ht ▸ trivial
  | cond c b rest n =>
    rw [written]
    exact (((startsWith_on trivial n).mul _).mul _).mul _
  | loop c b n =>
    rw [written]
    exact ((startsWith_on trivial n).mul _).mul _
  | count d c s b n =>
    rw [written]
    exact (((((startsWith_on trivial n).mul _).mul _).mul _).mul _).mul _
  | return_ v n =>
    rw [written]
    exact ((startsWith_on trivial n).mul _).mul _
  | exit k n =>
    rw [written]
    refine (startsWith_on ?_ n).mul _
    cases k <;> exact trivial

end Scriptling
