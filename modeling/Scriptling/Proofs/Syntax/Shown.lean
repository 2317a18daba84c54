import Scriptling.Proofs.Grammar.Writing
import Scriptling.Proofs.Syntax.Leaves
import Scriptling.Proofs.Syntax.Lines

/-!
# Scriptling.Proofs.Syntax.Shown -- what is shown of a tree

The S-expression of a tree has no lines, and an infinite float is shown as a name. Nothing else is left out: a
tree that is put on other lines, and in which infinite floats are names, has the same S-expression
(`Statement.sexpr_nameInfinity`). If the tokens of the tree can stand in a source, then all words of the
S-expression are legible (`Statement.legible`).
-/

set_option autoImplicit false

namespace Scriptling

open Token

/-! ## Infinite floats as names -/

/-- The literal as an expression. An infinite float is the name that it is shown as. -/
def Literal.nameInfinity (v : Literal) (n : Nat) : Expr :=
  match v with
  | .float x => if Binary64.read x = .infinite false then .name "inf" n else .literal (.float x) n
  | v => .literal v n

mutual

/-- The expression with names in the place of infinite floats. -/
def Expr.nameInfinity : Expr → Expr
  | .literal v n => v.nameInfinity n
  | .name x n => .name x n
  | .group e n => .group e.nameInfinity n
  | .call f args n => .call f (Expr.nameInfinityAll args) n
  | .cast t e n => .cast t e.nameInfinity n
  | .unary op e n => .unary op e.nameInfinity n
  | .binary op l r n => .binary op l.nameInfinity r.nameInfinity n
  | .assign op x e n => .assign op x e.nameInfinity n

/-- Several expressions with names in the place of infinite floats. -/
def Expr.nameInfinityAll : List Expr → List Expr
  | [] => []
  | e :: es => e.nameInfinity :: Expr.nameInfinityAll es

end

/-- The variable with names in the place of infinite floats. -/
def VarDecl.nameInfinity (d : VarDecl) : VarDecl := { d with initial := d.initial.map Expr.nameInfinity }

mutual

/-- The block with names in the place of infinite floats. -/
def Block.nameInfinity : Block → Block
  | ⟨statements, n⟩ => ⟨Statement.nameInfinityAll statements, n⟩

/-- The branches with names in the place of infinite floats. -/
def Branches.nameInfinity : Branches → Branches
  | .done => .done
  | .elif c b rest n => .elif c.nameInfinity b.nameInfinity rest.nameInfinity n
  | .otherwise b n => .otherwise b.nameInfinity n

/-- The function with names in the place of infinite floats. -/
def Function.nameInfinity : Function → Function
  | ⟨name, result, params, body, n⟩ => ⟨name, result, params, body.nameInfinity, n⟩

/-- The statement with names in the place of infinite floats. -/
def Statement.nameInfinity : Statement → Statement
  | .var d => .var d.nameInfinity
  | .func f => .func f.nameInfinity
  | .expr e n => .expr e.nameInfinity n
  | .print e es n => .print e.nameInfinity (Expr.nameInfinityAll es) n
  | .block b => .block b.nameInfinity
  | .cond c b rest n => .cond c.nameInfinity b.nameInfinity rest.nameInfinity n
  | .loop c b n => .loop c.nameInfinity b.nameInfinity n
  | .count d c s b n => .count d.nameInfinity c.nameInfinity s.nameInfinity b.nameInfinity n
  | .return_ v n => .return_ (v.map Expr.nameInfinity) n
  | .exit k n => .exit k n

/-- Several statements with names in the place of infinite floats. -/
def Statement.nameInfinityAll : List Statement → List Statement
  | [] => []
  | s :: ss => s.nameInfinity :: Statement.nameInfinityAll ss

end

/-! ## They are shown alike -/

section Sexprs

variable (f : Nat → Nat)

/-- A literal is shown as its text, also where an infinite float is taken for the name `inf`. -/
theorem Literal.sexpr_nameInfinity (v : Literal) (n : Nat) :
    ((v.nameInfinity n).reline f).sexpr = .atom v.text := by
  cases v with
  | float x =>
    unfold Literal.nameInfinity
    dsimp only
    split_ifs with hx
    · rw [Expr.reline, Expr.sexpr, Literal.text, Binary64.text_of_infinite hx]
    · rw [Expr.reline, Expr.sexpr]
  | _ => rfl

mutual

theorem Expr.sexpr_nameInfinity : ∀ e : Expr, (e.nameInfinity.reline f).sexpr = e.sexpr
  | .literal v n => by rw [nameInfinity, v.sexpr_nameInfinity, sexpr]
  | .name x n => by rw [nameInfinity, reline, sexpr, sexpr]
  | .group e n => by rw [nameInfinity, reline, sexpr, sexpr, e.sexpr_nameInfinity]
  | .call g args n => by rw [nameInfinity, reline, sexpr, sexpr, Expr.sexprs_nameInfinityAll args]
  | .cast t e n => by rw [nameInfinity, reline, sexpr, sexpr, e.sexpr_nameInfinity]
  | .unary op e n => by rw [nameInfinity, reline, sexpr, sexpr, e.sexpr_nameInfinity]
  | .binary op l r n => by
    rw [nameInfinity, reline, sexpr, sexpr, l.sexpr_nameInfinity, r.sexpr_nameInfinity]
  | .assign op x e n => by rw [nameInfinity, reline, sexpr, sexpr, e.sexpr_nameInfinity]

theorem Expr.sexprs_nameInfinityAll : ∀ es : List Expr,
    Expr.sexprs (Expr.relineAll f (Expr.nameInfinityAll es)) = Expr.sexprs es
  | [] => by rw [nameInfinityAll, relineAll]
  | e :: es => by
    rw [nameInfinityAll, relineAll, sexprs, sexprs, e.sexpr_nameInfinity, Expr.sexprs_nameInfinityAll es]

end

theorem VarDecl.sexpr_nameInfinity (d : VarDecl) : (d.nameInfinity.reline f).sexpr = d.sexpr := by
  rcases d with ⟨name, type, constant, initial, n⟩
  cases initial with
  | none => rfl
  | some e => simp [VarDecl.nameInfinity, VarDecl.reline, VarDecl.sexpr, e.sexpr_nameInfinity]

mutual

theorem Block.sexpr_nameInfinity : ∀ b : Block, (b.nameInfinity.reline f).sexpr = b.sexpr
  | ⟨statements, n⟩ => by
    rw [Block.nameInfinity, Block.reline, Block.sexpr, Block.sexpr,
      Statement.sexprs_nameInfinityAll statements]

theorem Branches.sexprs_nameInfinity : ∀ bs : Branches, (bs.nameInfinity.reline f).sexprs = bs.sexprs
  | .done => by rw [Branches.nameInfinity, Branches.reline]
  | .elif c b rest n => by
    rw [Branches.nameInfinity, Branches.reline, Branches.sexprs, Branches.sexprs, c.sexpr_nameInfinity,
      b.sexpr_nameInfinity, rest.sexprs_nameInfinity]
  | .otherwise b n => by
    rw [Branches.nameInfinity, Branches.reline, Branches.sexprs, Branches.sexprs, b.sexpr_nameInfinity]

theorem Function.sexpr_nameInfinity : ∀ g : Function, (g.nameInfinity.reline f).sexpr = g.sexpr
  | ⟨name, result, params, body, n⟩ => by
    rw [Function.nameInfinity, Function.reline, Function.sexpr, Function.sexpr, body.sexpr_nameInfinity,
      List.map_map]
    rfl

/-- The lines and the infinite floats of a statement are not shown. -/
theorem Statement.sexpr_nameInfinity : ∀ s : Statement, (s.nameInfinity.reline f).sexpr = s.sexpr
  | .var d => by
    rw [Statement.nameInfinity, Statement.reline, Statement.sexpr, Statement.sexpr, d.sexpr_nameInfinity]
  | .func g => by
    rw [Statement.nameInfinity, Statement.reline, Statement.sexpr, Statement.sexpr, g.sexpr_nameInfinity]
  | .expr e n => by
    rw [Statement.nameInfinity, Statement.reline, Statement.sexpr, Statement.sexpr, e.sexpr_nameInfinity]
  | .print e es n => by
    rw [Statement.nameInfinity, Statement.reline, Statement.sexpr, Statement.sexpr, e.sexpr_nameInfinity,
      ← Expr.relineAll_eq_map, Expr.sexprs_nameInfinityAll]
  | .block b => by
    rw [Statement.nameInfinity, Statement.reline, Statement.sexpr, Statement.sexpr, b.sexpr_nameInfinity]
  | .cond c b rest n => by
    rw [Statement.nameInfinity, Statement.reline, Statement.sexpr, Statement.sexpr, c.sexpr_nameInfinity,
      b.sexpr_nameInfinity, rest.sexprs_nameInfinity]
  | .loop c b n => by
    rw [Statement.nameInfinity, Statement.reline, Statement.sexpr, Statement.sexpr, c.sexpr_nameInfinity,
      b.sexpr_nameInfinity]
  | .count d c s b n => by
    rw [Statement.nameInfinity, Statement.reline, Statement.sexpr, Statement.sexpr, d.sexpr_nameInfinity,
      c.sexpr_nameInfinity, s.sexpr_nameInfinity, b.sexpr_nameInfinity]
  | .return_ none n => by rw [Statement.nameInfinity, Statement.reline, Statement.sexpr, Statement.sexpr]; rfl
  | .return_ (some e) n => by
    rw [Statement.nameInfinity, Statement.reline, Statement.sexpr, Statement.sexpr, Option.map_some,
      Option.map_some, Option.map_some, e.sexpr_nameInfinity]
    rfl
  | .exit k n => by rw [Statement.nameInfinity, Statement.reline, Statement.sexpr, Statement.sexpr]

theorem Statement.sexprs_nameInfinityAll : ∀ ss : List Statement,
    Statement.sexprs (Statement.relineAll f (Statement.nameInfinityAll ss)) = Statement.sexprs ss
  | [] => by rw [Statement.nameInfinityAll, Statement.relineAll]
  | s :: ss => by
    rw [Statement.nameInfinityAll, Statement.relineAll, Statement.sexprs, Statement.sexprs,
      s.sexpr_nameInfinity, Statement.sexprs_nameInfinityAll ss]

end

end Sexprs

/-! ## Their words are legible -/

namespace Sexpr

theorem legible_node {head : String} {items : List Sexpr} (hhead : LegibleWord head)
    (hitems : LegibleAll items) : (node head items).Legible := by
  rw [node, Legible, LegibleAll, Legible]
  exact ⟨hhead, hitems⟩

theorem legibleAll_append {ss ts : List Sexpr} (hss : LegibleAll ss) (hts : LegibleAll ts) :
    LegibleAll (ss ++ ts) :=
  legibleAll_iff.2 (List.forall_mem_append.2 ⟨legibleAll_iff.1 hss, legibleAll_iff.1 hts⟩)

theorem legibleAll_singleton {s : Sexpr} (hs : s.Legible) : LegibleAll [s] := ⟨hs, trivial⟩

theorem legibleAll_pair {s t : Sexpr} (hs : s.Legible) (ht : t.Legible) : LegibleAll [s, t] :=
  ⟨hs, ht, trivial⟩

/-- The words that tell what an S-expression shows. -/
theorem legible_head : ∀ w ∈ ["group", "call", "cast", "var", "constant", "block", "elif", "else", "func",
    "print", "if", "while", "for", "return", "break", "remit"], LegibleWord w := by
  have hplain : ∀ w ∈ ["group", "call", "cast", "var", "constant", "block", "elif", "else", "func", "print",
      "if", "while", "for", "return", "break", "remit"],
      w ≠ "" ∧ w.toList.all (fun c => decide (Plain c)) = true := by decide
  exact fun w hw => legibleWord_of_all (hplain w hw).1 (hplain w hw).2

end Sexpr

open Sexpr

theorem ValueType.legible (t : ValueType) : (Sexpr.atom t.name).Legible := by
  cases t <;> exact legibleWord_of_all (by decide) (by decide)

theorem UnaryOperator.legible (op : UnaryOperator) : LegibleWord op.symbol := by
  cases op <;> exact legibleWord_of_all (by decide) (by decide)

theorem BinaryOperator.legible (op : BinaryOperator) : LegibleWord op.symbol := by
  rcases op with op | op | op | op | op | op <;> cases op <;>
    exact legibleWord_of_all (by decide) (by decide)

theorem AssignOperator.legible (op : AssignOperator) : LegibleWord op.symbol := by
  rcases op with _ | op
  · exact legibleWord_of_all (by decide) (by decide)
  · cases op <;> exact legibleWord_of_all (by decide) (by decide)

/-- What the infinite float is shown as is a name. -/
theorem isName_inf : IsName "inf" := by
  refine ⟨mem_oneOf_mul.2 ⟨'i', (isWordStart_iff 'i').1 (by decide), ['n', 'f'], mem_kstar_oneOf.2 ?_, rfl⟩, ?_⟩
  · intro c hc
    refine (isWordPart_iff c).1 ?_
    rcases List.mem_pair.1 hc with rfl | rfl <;> decide
  · intro t ht
    have hwords : ∀ e ∈ words, e.1 ≠ "inf".toList := by decide
    exact hwords _ ht rfl

/-- The word of a literal that can stand in a source. -/
theorem Literal.showsLeaf {v : Literal} (h : v.token.Lexed) (n : Nat) :
    ShowsLeaf v.text ((v.nameInfinity n).reline fun _ => 0) := by
  cases v with
  | int w => exact .int (Lexed.integer h)
  | float x =>
    by_cases hx : Binary64.read x = .infinite false
    · rw [Literal.nameInfinity, if_pos hx, Expr.reline, Literal.text, Binary64.text_of_infinite hx]
      exact .name isName_inf
    · rw [Literal.nameInfinity, if_neg hx, Expr.reline]
      exact .float (Lexed.float h) hx
  | bool b => exact .bool b
  | string s => exact .string s
  | char c => exact .char c

/-- All of the tokens can stand in a source. -/
def Token.LexedAll (ts : List Token) : Prop := ∀ t ∈ ts, t.Lexed

section LexedAll

variable {t : Token} {ts us : List Token}

@[simp] theorem Token.lexedAll_nil : LexedAll [] := List.forall_mem_nil _

@[simp] theorem Token.lexedAll_cons : LexedAll (t :: ts) ↔ t.Lexed ∧ LexedAll ts := List.forall_mem_cons

@[simp] theorem Token.lexedAll_append : LexedAll (ts ++ us) ↔ LexedAll ts ∧ LexedAll us :=
  List.forall_mem_append

theorem Token.lexedAll_followingTokens {tss : List (List Token)} (h : LexedAll (Grammar.followingTokens tss)) :
    ∀ ts ∈ tss, LexedAll ts := by
  induction tss with
  | nil => exact List.forall_mem_nil _
  | cons ts tss ih =>
    simp only [Grammar.followingTokens, List.cons_append, lexedAll_cons, lexedAll_append] at h
    exact List.forall_mem_cons.2 ⟨h.2.1, ih h.2.2⟩

/-- The tokens of items are among those of the list. -/
theorem Token.lexedAll_separatedTokens {tss : List (List Token)} (h : LexedAll (Grammar.separatedTokens tss)) :
    ∀ ts ∈ tss, LexedAll ts := by
  cases tss with
  | nil => exact List.forall_mem_nil _
  | cons ts tss =>
    simp only [Grammar.separatedTokens, lexedAll_append] at h
    exact List.forall_mem_cons.2 ⟨h.1, lexedAll_followingTokens h.2⟩

end LexedAll

theorem Token.Lexed.legible {x : String} (h : (Token.identifier x).Lexed) : (Sexpr.atom x).Legible := by
  rw [Sexpr.Legible]
  exact h.identifier.legible

mutual

/-- All words that an expression is shown with are legible, if it can stand in a source. -/
theorem Expr.legible : ∀ e : Expr, LexedAll e.tokens → e.sexpr.Legible
  | .literal v n, h => by
    rw [tokens, lexedAll_cons] at h
    rw [sexpr, Sexpr.Legible]
    exact (v.showsLeaf h.1 n).legible
  | .name x n, h => by
    rw [tokens, lexedAll_cons] at h
    rw [sexpr]
    exact h.1.legible
  | .group e n, h => by
    simp only [tokens, lexedAll_cons, lexedAll_append] at h
    rw [sexpr]
    exact legible_node (legible_head _ (by decide)) (legibleAll_singleton (e.legible h.1.2))
  | .call f args n, h => by
    simp only [tokens, List.cons_append, lexedAll_cons, lexedAll_append] at h
    rw [sexpr]
    have hargs := Expr.legibleAll args (lexedAll_separatedTokens h.2.2.1)
    exact legible_node (legible_head _ (by decide)) ⟨h.1.legible, hargs⟩
  | .cast t e n, h => by
    simp only [tokens, List.cons_append, List.nil_append, lexedAll_cons, lexedAll_append] at h
    rw [sexpr]
    have he := e.legible h.2.2.2.2.2.1
    exact legible_node (legible_head _ (by decide)) (legibleAll_pair t.legible he)
  | .unary op e n, h => by
    rw [tokens, lexedAll_cons] at h
    rw [sexpr]
    exact legible_node op.legible (legibleAll_singleton (e.legible h.2))
  | .binary op l r n, h => by
    simp only [tokens, lexedAll_append] at h
    rw [sexpr]
    exact legible_node op.legible (legibleAll_pair (l.legible h.1.1) (r.legible h.2))
  | .assign op x e n, h => by
    simp only [tokens, lexedAll_cons] at h
    rw [sexpr]
    exact legible_node op.legible (legibleAll_pair h.1.legible (e.legible h.2.2))

theorem Expr.legibleAll : ∀ es : List Expr, (∀ ts ∈ Expr.tokensAll es, LexedAll ts) →
    LegibleAll (Expr.sexprs es)
  | [], _ => trivial
  | e :: es, h => by
    rw [tokensAll, List.forall_mem_cons] at h
    exact ⟨e.legible h.1, Expr.legibleAll es h.2⟩

end

/-- Beside the name, only words of the language are shown of what is declared. -/
theorem legible_declared {name : String} (hname : (Sexpr.atom name).Legible) (constant : Bool)
    (type : ValueType) : LegibleAll (declared name constant type) := by
  have hconstant : LegibleAll (if constant then [Sexpr.atom "constant"] else []) := by
    cases constant with
    | false => exact trivial
    | true => exact legibleAll_singleton (legible_head _ (by decide))
  have hname' : LegibleAll (.atom name :: if constant then [Sexpr.atom "constant"] else []) := ⟨hname, hconstant⟩
  exact legibleAll_append hname' (legibleAll_singleton type.legible)

theorem VarDecl.legible (d : VarDecl) (h : LexedAll d.tokens) : d.sexpr.Legible := by
  rcases d with ⟨name, type, constant, initial, n⟩
  simp only [VarDecl.tokens, List.cons_append, lexedAll_cons, lexedAll_append] at h
  have hinitial : LegibleAll (initial.map Expr.sexpr).toList := by
    cases initial with
    | none => exact trivial
    | some e =>
      simp only [Option.elim_some, lexedAll_cons] at h
      exact legibleAll_singleton (e.legible h.2.2.1.2.2)
  exact legible_node (legible_head _ (by decide))
    (legibleAll_append (legible_declared h.1.legible constant type) hinitial)

theorem Param.legible (p : Param) (h : LexedAll p.tokens) : p.sexpr.Legible := by
  simp only [Param.tokens, lexedAll_cons] at h
  exact legible_node (legible_head _ (by decide)) (legible_declared h.1.legible p.constant p.type)

theorem Param.legibleAll (ps : List Param) (h : ∀ ts ∈ ps.map Param.tokens, LexedAll ts) :
    LegibleAll (ps.map Param.sexpr) := by
  refine legibleAll_iff.2 fun s hs => ?_
  obtain ⟨p, hp, rfl⟩ := List.mem_map.1 hs
  exact p.legible (h _ (List.mem_map_of_mem hp))

mutual

theorem Block.legible : ∀ b : Block, LexedAll b.tokens → b.sexpr.Legible
  | ⟨statements, n⟩, h => by
    simp only [Block.tokens, List.cons_append, lexedAll_cons, lexedAll_append] at h
    rw [Block.sexpr]
    exact legible_node (legible_head _ (by decide)) (Statement.legibleAll statements h.2.1)

theorem Branches.legible : ∀ bs : Branches, LexedAll bs.tokens → LegibleAll bs.sexprs
  | .done, _ => by
    rw [Branches.sexprs]
    exact trivial
  | .elif c b rest n, h => by
    simp only [Branches.tokens, List.cons_append, lexedAll_cons, lexedAll_append] at h
    rw [Branches.sexprs]
    have hnode := legible_node (legible_head "elif" (by decide))
      (legibleAll_pair (c.legible h.2.1.1) (b.legible h.2.1.2))
    exact ⟨hnode, rest.legible h.2.2⟩
  | .otherwise b n, h => by
    simp only [Branches.tokens, lexedAll_cons] at h
    rw [Branches.sexprs]
    exact legibleAll_singleton
      (legible_node (legible_head _ (by decide)) (legibleAll_singleton (b.legible h.2)))

theorem Function.legible : ∀ f : Function, LexedAll f.tokens → f.sexpr.Legible
  | ⟨name, result, params, body, n⟩, h => by
    simp only [Function.tokens, List.cons_append, List.nil_append, lexedAll_cons, lexedAll_append] at h
    obtain ⟨hname, -, -, -, ⟨⟨hparams, -⟩, -⟩, hbody⟩ := h
    rw [Function.sexpr]
    have hlist : (Sexpr.list (params.map Param.sexpr)).Legible := by
      rw [Sexpr.Legible]
      exact Param.legibleAll params (lexedAll_separatedTokens hparams)
    exact legible_node (legible_head _ (by decide))
      ⟨hname.legible, hlist, legibleAll_pair result.legible (body.legible hbody)⟩

/-- All words that a statement is shown with are legible, if it can stand in a source. -/
theorem Statement.legible : ∀ s : Statement, LexedAll s.tokens → LegibleAll s.sexpr
  | .var d, h => by
    rw [Statement.tokens] at h
    rw [Statement.sexpr]
    exact legibleAll_singleton (d.legible h)
  | .func f, h => by
    rw [Statement.tokens] at h
    rw [Statement.sexpr]
    exact legibleAll_singleton (f.legible h)
  | .expr e n, h => by
    simp only [Statement.tokens, lexedAll_append] at h
    rw [Statement.sexpr]
    exact legibleAll_singleton (e.legible h.1)
  | .print e es n, h => by
    simp only [Statement.tokens, List.cons_append, lexedAll_cons, lexedAll_append] at h
    rw [Statement.sexpr]
    have hes := Expr.legibleAll es (lexedAll_followingTokens h.2.1.2)
    exact legibleAll_singleton (legible_node (legible_head _ (by decide)) ⟨e.legible h.2.1.1, hes⟩)
  | .block b, h => by
    rw [Statement.tokens] at h
    rw [Statement.sexpr]
    exact legibleAll_singleton (b.legible h)
  | .cond c b rest n, h => by
    simp only [Statement.tokens, List.cons_append, lexedAll_cons, lexedAll_append] at h
    rw [Statement.sexpr]
    have hnode := legible_node (legible_head "if" (by decide))
      (legibleAll_pair (c.legible h.2.1.1) (b.legible h.2.1.2))
    exact ⟨hnode, rest.legible h.2.2⟩
  | .loop c b n, h => by
    simp only [Statement.tokens, List.cons_append, lexedAll_cons, lexedAll_append] at h
    rw [Statement.sexpr]
    exact legibleAll_singleton (legible_node (legible_head _ (by decide))
      (legibleAll_pair (c.legible h.2.1) (b.legible h.2.2)))
  | .count d c s b n, h => by
    simp only [Statement.tokens, List.cons_append, lexedAll_cons, lexedAll_append] at h
    obtain ⟨-, ⟨⟨⟨hd, hc⟩, -⟩, hs⟩, hb⟩ := h
    rw [Statement.sexpr]
    exact legibleAll_singleton (legible_node (legible_head _ (by decide))
      ⟨d.legible hd, c.legible hc, legibleAll_pair (s.legible hs) (b.legible hb)⟩)
  | .return_ none n, h => by
    rw [Statement.sexpr]
    exact legibleAll_singleton (legible_node (legible_head _ (by decide)) trivial)
  | .return_ (some e) n, h => by
    simp only [Statement.tokens, List.cons_append, lexedAll_cons, lexedAll_append, Option.elim_some] at h
    rw [Statement.sexpr]
    exact legibleAll_singleton
      (legible_node (legible_head _ (by decide)) (legibleAll_singleton (e.legible h.2.1)))
  | .exit k n, h => by
    rw [Statement.sexpr]
    cases k <;> exact legibleAll_singleton (legible_node (legible_head _ (by decide)) trivial)

theorem Statement.legibleAll : ∀ ss : List Statement, LexedAll (Statement.tokensAll ss) →
    LegibleAll (Statement.sexprs ss)
  | [], _ => by
    rw [Statement.sexprs]
    exact trivial
  | s :: ss, h => by
    rw [Statement.tokensAll, lexedAll_append] at h
    rw [Statement.sexprs]
    exact legibleAll_append (s.legible h.1) (Statement.legibleAll ss h.2)

end

end Scriptling
