import Scriptling.Proofs.Grammar.Writing
import Scriptling.Proofs.Syntax.Lines

/-!
# Scriptling.Proofs.Grammar.Spelling -- the tokens of a tree and the ways to write it

The ways to write a tree and its tokens are built up alike, from single tokens and from parts. So a relation of a
language and a sequence of tokens that all of these steps keep (`Spelling`) is one of every tree: by
`Statement.spelling`, between the ways to write it on other lines and its tokens.

There are two such relations. All ways to write a tree have its tokens, but for `-> void` (`Statement.spells`); and
the tokens of a tree, all on one line, are a way to write it with its nodes on that line (`Statement.writes`).
-/

set_option autoImplicit false

namespace Scriptling

namespace Grammar

/-- The steps of writing keep the relation of a language and its tokens, where nodes are on the lines that `f`
takes theirs to. -/
structure Spelling (f : Nat → Nat) (R : Language Lexeme → List Token → Prop) : Prop where
  on (t : Token) (n : Nat) : R (t.on (f n)) [t]
  word (t : Token) : R t.word [t]
  one : R 1 []
  mul {v w : Language Lexeme} {ts us : List Token} : R v ts → R w us → R (v * w) (ts ++ us)
  /-- The line of a node is the line of a part. -/
  line {w : Language Lexeme} {ts : List Token} (n m : Nat) : R w ts → R (⨆ _ : f n = f m, w) ts
  /-- A result type that is `void` is left out of the tokens. -/
  result (type : ValueType) : R type.writtenResult type.resultTokens

namespace Spelling

variable {f : Nat → Nat} {R : Language Lexeme → List Token → Prop} (hR : Spelling f R)

include hR

theorem following {ws : List (Language Lexeme)} {tss : List (List Token)}
    (h : List.Forall₂ R ws tss) : R (Grammar.following ws) (followingTokens tss) := by
  induction h with
  | nil => exact hR.one
  | cons hw _ ih => exact hR.mul (hR.mul (hR.word _) hw) ih

theorem separated {ws : List (Language Lexeme)} {tss : List (List Token)}
    (h : List.Forall₂ R ws tss) : R (Grammar.separated ws) (separatedTokens tss) := by
  cases h with
  | nil => exact hR.one
  | cons hw hws => exact hR.mul hw (hR.following hws)

end Spelling

end Grammar

open Grammar

/-! ## Every tree -/

section Trees

variable {f : Nat → Nat} {R : Language Lexeme → List Token → Prop}

mutual

/-- The ways to write an expression on other lines, and its tokens. -/
theorem Expr.spelling (hR : Spelling f R) : ∀ e : Expr, R (e.reline f).written e.tokens
  | .literal v _ => by
    rw [reline, written, tokens]
    exact hR.on _ _
  | .name x _ => by
    rw [reline, written, tokens]
    exact hR.on _ _
  | .group e _ => by
    rw [reline, written, tokens]
    exact hR.mul (hR.mul (hR.on _ _) (e.spelling hR)) (hR.word _)
  | .call g args _ => by
    rw [reline, written, tokens]
    have hargs := hR.separated (Expr.spellingAll hR args)
    exact hR.mul (hR.mul (hR.mul (hR.on _ _) (hR.word _)) hargs) (hR.word _)
  | .cast t e n => by
    rw [reline, written, tokens]
    have htype := hR.mul (hR.mul (hR.on (.keyword .cast_) n)
      (hR.word (.operator (.comparison .less)))) (hR.word (.typeName t))
    have hopen := hR.mul (hR.mul htype (hR.word (.operator (.comparison .greater))))
      (hR.word (.mark .openParen))
    exact hR.mul (hR.mul hopen (e.spelling hR)) (hR.word _)
  | .unary op e _ => by
    rw [reline, written, tokens]
    exact hR.mul (hR.on _ _) (e.spelling hR)
  | .binary op l r n => by
    rw [reline, written, tokens, l.line_reline]
    exact hR.line n l.line (hR.mul (hR.mul (l.spelling hR) (hR.word _)) (r.spelling hR))
  | .assign op x e _ => by
    rw [reline, written, tokens]
    exact hR.mul (hR.mul (hR.on _ _) (hR.word _)) (e.spelling hR)

theorem Expr.spellingAll (hR : Spelling f R) : ∀ es : List Expr,
    List.Forall₂ R (Expr.writtenAll (Expr.relineAll f es)) (Expr.tokensAll es)
  | [] => .nil
  | e :: es => .cons (e.spelling hR) (Expr.spellingAll hR es)

end

variable (hR : Spelling f R)

include hR

theorem ValueType.spelling (constant : Bool) (type : ValueType) :
    R (type.written constant) (type.tokens constant) := by
  cases constant with
  | false => exact hR.mul hR.one (hR.word _)
  | true => exact hR.mul (hR.word _) (hR.word _)

theorem VarDecl.spelling (d : VarDecl) : R (d.reline f).written d.tokens := by
  rcases d with ⟨name, type, constant, initial, n⟩
  have hinitial : R
      ((initial.map (Expr.reline f)).elim 1 fun e => (Token.assign .plain).word * e.written)
      (initial.elim [] fun e => .assign .plain :: e.tokens) := by
    cases initial with
    | none => exact hR.one
    | some e => exact hR.mul (hR.word _) (e.spelling hR)
  have hname := hR.mul (hR.on (.identifier name) n) (hR.word (.mark .colon))
  exact hR.mul (hR.mul (hR.mul hname (type.spelling hR constant)) hinitial) (hR.word _)

theorem Param.spelling (p : Param) : R (p.reline f).written p.tokens :=
  hR.mul (hR.mul (hR.on _ _) (hR.word _)) (p.type.spelling hR p.constant)

theorem Param.spellingAll (ps : List Param) :
    List.Forall₂ R ((ps.map (Param.reline f)).map Param.written) (ps.map Param.tokens) := by
  induction ps with
  | nil => exact .nil
  | cons p ps ih => exact .cons (p.spelling hR) ih

mutual

theorem Block.spelling : ∀ b : Block, R (b.reline f).written b.tokens
  | ⟨statements, _⟩ => by
    rw [Block.reline, Block.written, Block.tokens]
    exact hR.mul (hR.mul (hR.on _ _) (Statement.spellingAll statements)) (hR.word _)

theorem Branches.spelling : ∀ bs : Branches, R (bs.reline f).written bs.tokens
  | .done => by
    rw [Branches.reline, Branches.written, Branches.tokens]
    exact hR.one
  | .elif c b rest _ => by
    rw [Branches.reline, Branches.written, Branches.tokens]
    exact hR.mul (hR.mul (hR.mul (hR.on _ _) (c.spelling hR)) b.spelling) rest.spelling
  | .otherwise b _ => by
    rw [Branches.reline, Branches.written, Branches.tokens]
    exact hR.mul (hR.on _ _) b.spelling

theorem Function.spelling : ∀ g : Function, R (g.reline f).written g.tokens
  | ⟨name, result, params, body, n⟩ => by
    rw [Function.reline, Function.written, Function.tokens]
    have hname := hR.mul (hR.mul (hR.mul (hR.on (.identifier name) n) (hR.word (.mark .colon)))
      (hR.word (.keyword .func_))) (hR.word (.mark .openParen))
    have hparams := hR.mul (hR.mul hname (hR.separated (Param.spellingAll hR params)))
      (hR.word (.mark .closeParen))
    exact hR.mul (hR.mul hparams (hR.result result)) body.spelling

/-- The ways to write a statement on other lines, and its tokens. -/
theorem Statement.spelling : ∀ s : Statement, R (s.reline f).written s.tokens
  | .var d => by
    rw [Statement.reline, Statement.written, Statement.tokens]
    exact d.spelling hR
  | .func g => by
    rw [Statement.reline, Statement.written, Statement.tokens]
    exact g.spelling
  | .expr e n => by
    rw [Statement.reline, Statement.written, Statement.tokens, e.line_reline]
    exact hR.line n e.line (hR.mul (e.spelling hR) (hR.word _))
  | .print e es _ => by
    rw [Statement.reline, Statement.written, Statement.tokens, ← Expr.relineAll_eq_map]
    have hes := hR.following (Expr.spellingAll hR es)
    exact hR.mul (hR.mul (hR.mul (hR.on _ _) (e.spelling hR)) hes) (hR.word _)
  | .block b => by
    rw [Statement.reline, Statement.written, Statement.tokens]
    exact b.spelling
  | .cond c b rest _ => by
    rw [Statement.reline, Statement.written, Statement.tokens]
    exact hR.mul (hR.mul (hR.mul (hR.on _ _) (c.spelling hR)) b.spelling) rest.spelling
  | .loop c b _ => by
    rw [Statement.reline, Statement.written, Statement.tokens]
    exact hR.mul (hR.mul (hR.on _ _) (c.spelling hR)) b.spelling
  | .count d c s b n => by
    rw [Statement.reline, Statement.written, Statement.tokens]
    have hhead := hR.mul (hR.mul (hR.mul (hR.on (.keyword .for_) n) (d.spelling hR)) (c.spelling hR))
      (hR.word (.mark .semicolon))
    exact hR.mul (hR.mul hhead (s.spelling hR)) b.spelling
  | .return_ none _ => by
    rw [Statement.reline, Statement.written, Statement.tokens]
    exact hR.mul (hR.mul (hR.on _ _) hR.one) (hR.word _)
  | .return_ (some e) _ => by
    rw [Statement.reline, Statement.written, Statement.tokens]
    exact hR.mul (hR.mul (hR.on _ _) (e.spelling hR)) (hR.word _)
  | .exit k _ => by
    rw [Statement.reline, Statement.written, Statement.tokens]
    exact hR.mul (hR.on _ _) (hR.word _)

theorem Statement.spellingAll : ∀ ss : List Statement,
    R (Statement.writtenAll (Statement.relineAll f ss)) (Statement.tokensAll ss)
  | [] => by
    rw [Statement.relineAll, Statement.writtenAll, Statement.tokensAll]
    exact hR.one
  | s :: ss => by
    rw [Statement.relineAll, Statement.writtenAll, Statement.tokensAll]
    exact hR.mul s.spelling (Statement.spellingAll ss)

end

end Trees

/-! ## All ways to write a tree have its tokens -/

namespace Grammar

/-- All ways to write something have the given tokens, but for `-> void`. -/
def Spells (w : Language Lexeme) (ts : List Token) : Prop :=
  ∀ ls ∈ w, UpToVoid (ls.map Lexeme.token) ts

theorem spells_on (t : Token) (n : Nat) : Spells (t.on n) [t] := by
  rintro ls rfl
  exact .cons t .nil

theorem spells_word (t : Token) : Spells t.word [t] := by
  intro ls hls
  obtain ⟨n, hls⟩ := Language.mem_iSup.1 hls
  exact spells_on t n ls hls

theorem spells_one : Spells 1 [] := by
  rintro ls rfl
  exact .nil

theorem Spells.mul {v w : Language Lexeme} {ts us : List Token} (h : Spells v ts)
    (k : Spells w us) : Spells (v * w) (ts ++ us) := by
  intro ls hls
  obtain ⟨as, has, bs, hbs, rfl⟩ := Language.mem_mul.1 hls
  rw [List.map_append]
  exact (h as has).append (k bs hbs)

theorem Spells.iSup {p : Prop} {w : Language Lexeme} {ts : List Token} (h : Spells w ts) :
    Spells (⨆ _ : p, w) ts := by
  intro ls hls
  obtain ⟨-, hls⟩ := Language.mem_iSup.1 hls
  exact h ls hls

/-- Only here does a tree leave a choice of tokens. -/
theorem spells_result (type : ValueType) : Spells type.writtenResult type.resultTokens := by
  unfold ValueType.writtenResult ValueType.resultTokens
  rintro ls (hls | hls)
  · have h := ((spells_word (.mark .arrow)).mul (spells_word (.typeName type))) ls hls
    by_cases hvoid : type = .void
    · -- `-> void` is said.
      subst hvoid
      obtain ⟨as, has, bs, hbs, rfl⟩ := Language.mem_mul.1 hls
      obtain ⟨n, rfl⟩ := Language.mem_iSup.1 has
      obtain ⟨m, rfl⟩ := Language.mem_iSup.1 hbs
      exact .void .nil
    · rw [if_neg hvoid]
      exact h
  · by_cases hvoid : type = .void
    · rw [if_pos hvoid] at hls ⊢
      exact spells_one ls hls
    · rw [if_neg hvoid] at hls
      exact absurd hls (Language.notMem_zero ls)

theorem spelling_spells : Spelling id Spells where
  on t n := spells_on t n
  word := spells_word
  one := spells_one
  mul := .mul
  line _ _ := .iSup
  result := spells_result

end Grammar

/-- A statement is written with its tokens, but for `-> void`. -/
theorem Statement.spells (s : Statement) : Spells s.written s.tokens := by
  have h := s.spelling spelling_spells
  rwa [s.reline_id] at h

/-! ## The tokens of a tree are a way to write it -/

namespace Grammar

/-- The tokens, all on one line, are a way to write something. -/
def Writes (line : Nat) (w : Language Lexeme) (ts : List Token) : Prop :=
  ts.map (fun t => ⟨t, line⟩) ∈ w

variable (line : Nat)

theorem Writes.mul {v w : Language Lexeme} {ts us : List Token} (hv : Writes line v ts)
    (hw : Writes line w us) : Writes line (v * w) (ts ++ us) := by
  rw [Writes, List.map_append]
  exact Language.append_mem_mul hv hw

/-- The result type `void` need not be said. -/
theorem writes_result (type : ValueType) :
    Writes line type.writtenResult type.resultTokens := by
  rw [ValueType.resultTokens]
  split
  · rename_i hvoid
    rw [hvoid]
    exact ValueType.one_le_writtenResult Language.nil_mem_one
  · have harrow : Writes line (Token.mark .arrow).word [.mark .arrow] := Token.mem_word _ line
    have htype : Writes line (Token.typeName type).word [.typeName type] := Token.mem_word _ line
    exact type.word_le_writtenResult (harrow.mul line htype)

theorem spelling_writes : Spelling (fun _ => line) (Writes line) where
  on t _ := t.mem_on line
  word t := t.mem_word line
  one := Language.nil_mem_one
  mul := Writes.mul line
  line _ _ h := by rwa [iSup_pos rfl]
  result := writes_result line

end Grammar

/-- Statements on one line are written with their tokens on that line. -/
theorem Statement.writesAll (line : Nat) (ss : List Statement) :
    Writes line (Statement.writtenAll (Statement.relineAll (fun _ => line) ss))
      (Statement.tokensAll ss) :=
  Statement.spellingAll (spelling_writes line) ss

end Scriptling
