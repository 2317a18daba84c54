import Scriptling.Syntax.Statement
import Mathlib

/-!
# Scriptling.Proofs.Grammar.Writing -- trees written back in the grammar

The grammar read from the trees: `written` is the language of all ways to write a tree down, as tokens
with their lines. A line stands in the tree only where a node begins, so all other tokens may be on any
line. There is one choice of tokens, too: a function without a result may say so or not.

`tokens` makes that choice, and leaves the lines out: it is the one sequence of tokens that a tree is
written with when `-> void` is left unsaid. What the two have to do with each other is said in
`Scriptling.Proofs.Grammar.Spelling`.
-/

set_option autoImplicit false

namespace Scriptling

/-! ## Words -/

/-- A token on a given line. -/
def Token.on (t : Token) (line : Nat) : Language Lexeme := {[⟨t, line⟩]}

theorem Token.mem_on (t : Token) (line : Nat) : [⟨t, line⟩] ∈ t.on line := rfl

/-- A token on some line. -/
def Token.word (t : Token) : Language Lexeme := ⨆ line, t.on line

theorem Token.on_le_word (t : Token) (line : Nat) : t.on line ≤ t.word :=
  le_iSup (fun n => t.on n) line

theorem Token.mem_word (t : Token) (line : Nat) : [⟨t, line⟩] ∈ t.word :=
  t.on_le_word line (t.mem_on line)

/-- The token of a literal. -/
def Literal.token : Literal → Token
  | .int w => .integer w
  | .float x => .float x
  | .bool b => .bool b
  | .string s => .string s
  | .char c => .char c

/-- A token is read as a literal only if it is the token of that literal. -/
theorem Literal.token_of_ofToken? {t : Token} {v : Literal} (h : ofToken? t = some v) :
    t = v.token := by
  unfold ofToken? at h
  split at h <;> cases h <;> rfl

/-- The token of a prefix operator. -/
def UnaryOperator.token : UnaryOperator → Token
  | .negate => .operator (.arithmetic .sub)
  | .not => .not
  | .complement => .complement

theorem UnaryOperator.token_of_unary? {t : Token} {op : UnaryOperator} (h : t.unary? = some op) :
    t = op.token := by
  unfold Token.unary? at h
  split at h <;> cases h <;> rfl

/-- The keyword of an exit. -/
def Exit.keyword : Exit → Keyword
  | .break_ => .break_
  | .remit_ => .remit_

namespace Grammar

/-- Items each of which follows a comma. -/
def following : List (Language Lexeme) → Language Lexeme
  | [] => 1
  | w :: ws => (Token.mark .comma).word * w * following ws

/-- Items with commas between them. -/
def separated : List (Language Lexeme) → Language Lexeme
  | [] => 1
  | w :: ws => w * following ws

/-- The tokens of items each of which follows a comma. -/
def followingTokens : List (List Token) → List Token
  | [] => []
  | w :: ws => .mark .comma :: w ++ followingTokens ws

/-- The tokens of items with commas between them. -/
def separatedTokens : List (List Token) → List Token
  | [] => []
  | w :: ws => w ++ followingTokens ws

end Grammar

open Grammar

/-! ## Ways to write a tree -/

mutual

/-- The ways to write an expression. A binary node begins where its left operand does. -/
def Expr.written : Expr → Language Lexeme
  | .literal v n => v.token.on n
  | .name x n => (Token.identifier x).on n
  | .group e n => (Token.mark .openParen).on n * e.written * (Token.mark .closeParen).word
  | .call f args n =>
    (Token.identifier f).on n * (Token.mark .openParen).word * separated (Expr.writtenAll args)
      * (Token.mark .closeParen).word
  | .cast t e n =>
    (Token.keyword .cast_).on n * (Token.operator (.comparison .less)).word * (Token.typeName t).word
      * (Token.operator (.comparison .greater)).word * (Token.mark .openParen).word * e.written
      * (Token.mark .closeParen).word
  | .unary op e n => op.token.on n * e.written
  | .binary op l r n => ⨆ _ : n = l.line, l.written * (Token.operator op).word * r.written
  | .assign op x e n => (Token.identifier x).on n * (Token.assign op).word * e.written

/-- The ways to write each of several expressions. -/
def Expr.writtenAll : List Expr → List (Language Lexeme)
  | [] => []
  | e :: es => e.written :: Expr.writtenAll es

end

theorem Expr.writtenAll_eq_map (es : List Expr) : Expr.writtenAll es = es.map Expr.written := by
  induction es with
  | nil => rfl
  | cons e es ih => rw [writtenAll, ih, List.map_cons]

/-- The ways to write a type and whether it is that of a constant. -/
def ValueType.written (constant : Bool) (type : ValueType) : Language Lexeme :=
  (if constant then (Token.keyword .constant_).word else 1) * (Token.typeName type).word

/-- The ways to write a variable declaration. -/
def VarDecl.written (d : VarDecl) : Language Lexeme :=
  (Token.identifier d.name).on d.line * (Token.mark .colon).word * d.type.written d.constant
    * (d.initial.elim 1 fun e => (Token.assign .plain).word * e.written)
    * (Token.mark .semicolon).word

/-- The ways to write a parameter. -/
def Param.written (p : Param) : Language Lexeme :=
  (Token.identifier p.name).on p.line * (Token.mark .colon).word * p.type.written p.constant

/-- The ways to write the result type of a function: `void` may also be left out. -/
def ValueType.writtenResult (type : ValueType) : Language Lexeme :=
  (Token.mark .arrow).word * (Token.typeName type).word + if type = .void then 1 else 0

theorem ValueType.word_le_writtenResult (type : ValueType) :
    (Token.mark .arrow).word * (Token.typeName type).word ≤ type.writtenResult :=
  fun _ h => .inl h

/-- Of the result types, `void` may be left unsaid. -/
theorem ValueType.one_le_writtenResult : 1 ≤ ValueType.void.writtenResult := fun _ h => .inr h

mutual

/-- The ways to write a block. -/
def Block.written : Block → Language Lexeme
  | ⟨statements, n⟩ =>
    (Token.mark .openBrace).on n * Statement.writtenAll statements * (Token.mark .closeBrace).word

/-- The ways to write the branches after the first one. -/
def Branches.written : Branches → Language Lexeme
  | .done => 1
  | .elif c b rest n => (Token.keyword .elif_).on n * c.written * b.written * rest.written
  | .otherwise b n => (Token.keyword .else_).on n * b.written

/-- The ways to write a function. -/
def Function.written : Function → Language Lexeme
  | ⟨name, result, params, body, n⟩ =>
    (Token.identifier name).on n * (Token.mark .colon).word * (Token.keyword .func_).word
      * (Token.mark .openParen).word * separated (params.map Param.written)
      * (Token.mark .closeParen).word * result.writtenResult * body.written

/-- The ways to write a statement. -/
def Statement.written : Statement → Language Lexeme
  | .var d => d.written
  | .func f => f.written
  | .expr e n => ⨆ _ : n = e.line, e.written * (Token.mark .semicolon).word
  | .print e es n =>
    (Token.keyword .print_).on n * e.written * following (Expr.writtenAll es)
      * (Token.mark .semicolon).word
  | .block b => b.written
  | .cond c b rest n => (Token.keyword .if_).on n * c.written * b.written * rest.written
  | .loop c b n => (Token.keyword .while_).on n * c.written * b.written
  | .count d c s b n =>
    (Token.keyword .for_).on n * d.written * c.written * (Token.mark .semicolon).word * s.written
      * b.written
  | .return_ v n =>
    (Token.keyword .return_).on n * (v.elim 1 Expr.written) * (Token.mark .semicolon).word
  | .exit k n => (Token.keyword k.keyword).on n * (Token.mark .semicolon).word

/-- The ways to write statements one after another. -/
def Statement.writtenAll : List Statement → Language Lexeme
  | [] => 1
  | s :: ss => s.written * Statement.writtenAll ss

end

/-! ## The tokens of a tree -/

mutual

/-- The tokens of an expression. -/
def Expr.tokens : Expr → List Token
  | .literal v _ => [v.token]
  | .name x _ => [.identifier x]
  | .group e _ => .mark .openParen :: e.tokens ++ [.mark .closeParen]
  | .call f args _ =>
    .identifier f :: .mark .openParen :: separatedTokens (Expr.tokensAll args)
      ++ [.mark .closeParen]
  | .cast t e _ =>
    [.keyword .cast_, .operator (.comparison .less), .typeName t, .operator (.comparison .greater),
      .mark .openParen] ++ e.tokens ++ [.mark .closeParen]
  | .unary op e _ => op.token :: e.tokens
  | .binary op l r _ => l.tokens ++ [.operator op] ++ r.tokens
  | .assign op x e _ => .identifier x :: .assign op :: e.tokens

/-- The tokens of each of several expressions. -/
def Expr.tokensAll : List Expr → List (List Token)
  | [] => []
  | e :: es => e.tokens :: Expr.tokensAll es

end

/-- The tokens of a type and of whether it is that of a constant. -/
def ValueType.tokens (constant : Bool) (type : ValueType) : List Token :=
  (if constant then [.keyword .constant_] else []) ++ [.typeName type]

/-- The tokens of a variable declaration. -/
def VarDecl.tokens (d : VarDecl) : List Token :=
  .identifier d.name :: .mark .colon :: d.type.tokens d.constant
    ++ (d.initial.elim [] fun e => .assign .plain :: e.tokens) ++ [.mark .semicolon]

/-- The tokens of a parameter. -/
def Param.tokens (p : Param) : List Token :=
  .identifier p.name :: .mark .colon :: p.type.tokens p.constant

/-- The tokens of the result type of a function, none for `void`. -/
def ValueType.resultTokens (type : ValueType) : List Token :=
  if type = .void then [] else [.mark .arrow, .typeName type]

mutual

/-- The tokens of a block. -/
def Block.tokens : Block → List Token
  | ⟨statements, _⟩ =>
    .mark .openBrace :: Statement.tokensAll statements ++ [.mark .closeBrace]

/-- The tokens of the branches after the first one. -/
def Branches.tokens : Branches → List Token
  | .done => []
  | .elif c b rest _ => .keyword .elif_ :: c.tokens ++ b.tokens ++ rest.tokens
  | .otherwise b _ => .keyword .else_ :: b.tokens

/-- The tokens of a function. -/
def Function.tokens : Function → List Token
  | ⟨name, result, params, body, _⟩ =>
    [.identifier name, .mark .colon, .keyword .func_, .mark .openParen]
      ++ separatedTokens (params.map Param.tokens) ++ [.mark .closeParen] ++ result.resultTokens
      ++ body.tokens

/-- The tokens of a statement. -/
def Statement.tokens : Statement → List Token
  | .var d => d.tokens
  | .func f => f.tokens
  | .expr e _ => e.tokens ++ [.mark .semicolon]
  | .print e es _ =>
    .keyword .print_ :: e.tokens ++ followingTokens (Expr.tokensAll es) ++ [.mark .semicolon]
  | .block b => b.tokens
  | .cond c b rest _ => .keyword .if_ :: c.tokens ++ b.tokens ++ rest.tokens
  | .loop c b _ => .keyword .while_ :: c.tokens ++ b.tokens
  | .count d c s b _ =>
    .keyword .for_ :: d.tokens ++ c.tokens ++ [.mark .semicolon] ++ s.tokens ++ b.tokens
  | .return_ v _ => .keyword .return_ :: v.elim [] Expr.tokens ++ [.mark .semicolon]
  | .exit k _ => [.keyword k.keyword, .mark .semicolon]

/-- The tokens of statements one after another. -/
def Statement.tokensAll : List Statement → List Token
  | [] => []
  | s :: ss => s.tokens ++ Statement.tokensAll ss

end

/-! ## The first token -/

namespace Grammar

/-- All ways to write something begin with a token on the given line. -/
def StartsOn (line : Nat) (w : Language Lexeme) : Prop :=
  ∀ ls ∈ w, ∃ t rest, ls = ⟨t, line⟩ :: rest

theorem startsOn_on (t : Token) (n : Nat) : StartsOn n (t.on n) := by
  rintro ls rfl
  exact ⟨t, [], rfl⟩

theorem StartsOn.mul {n : Nat} {v : Language Lexeme} (h : StartsOn n v) (w : Language Lexeme) :
    StartsOn n (v * w) := by
  intro ls hls
  obtain ⟨as, has, bs, -, rfl⟩ := Language.mem_mul.1 hls
  obtain ⟨t, rest, rfl⟩ := h as has
  exact ⟨t, rest ++ bs, rfl⟩

theorem StartsOn.iSup {n : Nat} {p : Prop} {w : Language Lexeme} (h : p → StartsOn n w) :
    StartsOn n (⨆ _ : p, w) := by
  intro ls hls
  obtain ⟨hp, hls⟩ := Language.mem_iSup.1 hls
  exact h hp ls hls

/-- What begins with a token is not empty. -/
theorem StartsOn.ne_nil {n : Nat} {w : Language Lexeme} (h : StartsOn n w) {ls : List Lexeme}
    (hls : ls ∈ w) : ls ≠ [] := by
  obtain ⟨t, rest, rfl⟩ := h ls hls
  exact List.cons_ne_nil _ _

end Grammar

/-- An expression begins on its line. -/
theorem Expr.startsOn_written : ∀ e : Expr, StartsOn e.line e.written
  | .literal v n => by
    rw [written]
    exact startsOn_on _ n
  | .name x n => by
    rw [written]
    exact startsOn_on _ n
  | .group e n => by
    rw [written]
    exact ((startsOn_on _ n).mul _).mul _
  | .call f args n => by
    rw [written]
    exact (((startsOn_on _ n).mul _).mul _).mul _
  | .cast t e n => by
    rw [written]
    exact ((((((startsOn_on _ n).mul _).mul _).mul _).mul _).mul _).mul _
  | .unary op e n => by
    rw [written]
    exact (startsOn_on _ n).mul _
  | .binary op l r n => by
    rw [written]
    refine .iSup fun hn => ?_
    have hl : StartsOn n l.written := hn ▸ l.startsOn_written
    exact (hl.mul _).mul _
  | .assign op x e n => by
    rw [written]
    exact ((startsOn_on _ n).mul _).mul _

theorem VarDecl.startsOn_written (d : VarDecl) : StartsOn d.line d.written :=
  ((((startsOn_on _ d.line).mul _).mul _).mul _).mul _

theorem Block.startsOn_written : ∀ b : Block, StartsOn b.line b.written
  | ⟨_, n⟩ => by
    rw [written]
    exact ((startsOn_on _ n).mul _).mul _

theorem Function.startsOn_written : ∀ f : Function, StartsOn f.line f.written
  | ⟨_, _, _, _, n⟩ => by
    rw [written]
    exact (((((((startsOn_on _ n).mul _).mul _).mul _).mul _).mul _).mul _).mul _

/-- A statement begins on its line. -/
theorem Statement.startsOn_written (s : Statement) : StartsOn s.line s.written := by
  cases s with
  | var d =>
    rw [written]
    exact d.startsOn_written
  | func f =>
    rw [written]
    exact f.startsOn_written
  | expr e n =>
    rw [written]
    refine .iSup fun hn => ?_
    have he : StartsOn n e.written := hn ▸ e.startsOn_written
    exact he.mul _
  | print e es n =>
    rw [written]
    exact (((startsOn_on _ n).mul _).mul _).mul _
  | block b =>
    rw [written]
    exact b.startsOn_written
  | cond c b rest n =>
    rw [written]
    exact (((startsOn_on _ n).mul _).mul _).mul _
  | loop c b n =>
    rw [written]
    exact ((startsOn_on _ n).mul _).mul _
  | count d c s b n =>
    rw [written]
    exact (((((startsOn_on _ n).mul _).mul _).mul _).mul _).mul _
  | return_ v n =>
    rw [written]
    exact ((startsOn_on _ n).mul _).mul _
  | exit k n =>
    rw [written]
    exact (startsOn_on _ n).mul _

/-! ## Saying `-> void` -/

namespace Grammar

/-- Two sequences of tokens differ only in that the first one has more `-> void` in it. -/
inductive UpToVoid : List Token → List Token → Prop where
  | nil : UpToVoid [] []
  | cons (t : Token) {ts us : List Token} : UpToVoid ts us → UpToVoid (t :: ts) (t :: us)
  | void {ts us : List Token} :
    UpToVoid ts us → UpToVoid (.mark .arrow :: .typeName .void :: ts) us

theorem UpToVoid.append {ts us ts' us' : List Token} (h : UpToVoid ts us) (h' : UpToVoid ts' us') :
    UpToVoid (ts ++ ts') (us ++ us') := by
  induction h with
  | nil => exact h'
  | cons t _ ih => exact ih.cons t
  | void _ ih => exact ih.void

/-- Saying `-> void` adds tokens and takes none away. -/
theorem UpToVoid.subset {ts us : List Token} (h : UpToVoid ts us) : us ⊆ ts := by
  induction h with
  | nil => exact List.Subset.refl _
  | cons t _ ih => exact List.cons_subset_cons t ih
  | void _ ih => exact fun t ht => List.mem_cons_of_mem _ (List.mem_cons_of_mem _ (ih ht))

end Grammar

end Scriptling
