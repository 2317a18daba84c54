import Scriptling.Proofs.Grammar.Segments
import Scriptling.Proofs.Syntax.Places
import Scriptling.Proofs.Syntax.Shown

/-!
# Scriptling.Proofs.Syntax.Rendered -- the text of a statement determines the statement

A text determines the S-expressions it is the text of (`Sexpr.eq_of_spaced`), and they determine the tree: here
is a function that reads trees back from them. The first word of a list and the number of its items tell the
node, and a word that stands alone tells a leaf. What is read back is the tree on line 0 and with names in the
place of infinite floats (`Statement.readAll_sexpr`), which is all that is shown of it.

A conditional is shown as several lists, one for each branch, so a list of S-expressions is read from its end:
branches that are still without an `if` are kept until it comes.

The main result is `texts_determine_statements`.
-/

set_option autoImplicit false

namespace Scriptling

open Token

/-! ## Names of types and operators -/

/-- The type with the name. -/
def typeNamed (w : String) : ValueType :=
  ([.int, .float, .bool, .string, .char].find? fun t : ValueType => t.name = w).getD .void

theorem typeNamed_name (t : ValueType) : typeNamed t.name = t := by
  cases t <;> rfl

/-- The prefix operator with the symbol. -/
def unaryNamed (w : String) : UnaryOperator :=
  ([.not, .complement].find? fun op : UnaryOperator => op.symbol = w).getD .negate

/-- The assignment operator with the symbol. -/
def assignNamed? (w : String) : Option AssignOperator :=
  [.plain, .compound .add, .compound .sub, .compound .mul, .compound .div, .compound .mod].find?
    fun op : AssignOperator => op.symbol = w

/-- The binary operator with the symbol. -/
def binaryNamed (w : String) : BinaryOperator :=
  ([.arithmetic .add, .arithmetic .sub, .arithmetic .mul, .arithmetic .div, .arithmetic .mod, .shift .left,
    .shift .right, .comparison .less, .comparison .greater, .comparison .lessEqual, .comparison .greaterEqual,
    .equality .equal, .equality .notEqual, .bitwise .and, .bitwise .or, .bitwise .xor, .logical .and].find?
      fun op : BinaryOperator => op.symbol = w).getD (.logical .or)

/-! ## Reading leaves -/

open Classical in
/-- The leaf that the word shows. -/
noncomputable def leafOf (w : String) : Expr :=
  if h : ∃ e, ShowsLeaf w e then h.choose else .name w 0

/-- A word that shows a leaf is read as that leaf. -/
theorem leafOf_eq {w : String} {e : Expr} (h : ShowsLeaf w e) : leafOf w = e := by
  have hexists : ∃ e, ShowsLeaf w e := ⟨e, h⟩
  rw [leafOf, dif_pos hexists]
  exact hexists.choose_spec.unique h rfl

/-! ## Reading S-expressions -/

/-- What an S-expression shows. -/
inductive Fragment where
  | word (w : String)
  | expr (e : Expr)
  | var (d : VarDecl)
  /-- A list that does not begin with a word. -/
  | params (parts : List Fragment)
  | block (b : Block)
  | first (condition : Expr) (body : Block)
  | elif (condition : Expr) (body : Block)
  | otherwise (body : Block)
  | statement (s : Statement)

namespace Fragment

/-- The variable that is shown, if one is. -/
def toVar : Fragment → VarDecl
  | var d => d
  | _ => ⟨"", .void, false, none, 0⟩

/-- The parameters that are shown. -/
def toParams : Fragment → List Param
  | params parts => parts.map fun part => ⟨part.toVar.name, part.toVar.type, part.toVar.constant, 0⟩
  | _ => []

/-- The block that is shown, if one is. -/
def toBlock : Fragment → Block
  | block b => b
  | _ => ⟨[], 0⟩

/-- The expression that is shown. A word is a leaf. -/
noncomputable def toExpr : Fragment → Expr
  | word w => leafOf w
  | expr e => e
  | _ => .name "" 0

/-- The statements that are shown one after another, and in front of them the branches of a conditional that
begins earlier. -/
noncomputable def toStatements : List Fragment → Branches × List Statement
  | [] => (.done, [])
  | part :: parts =>
    let (branches, ss) := toStatements parts
    match part with
    | var d => (.done, .var d :: ss)
    | block b => (.done, .block b :: ss)
    | first c b => (.done, .cond c b branches 0 :: ss)
    | elif c b => (.elif c b branches 0, ss)
    | otherwise b => (.otherwise b 0, ss)
    | statement s => (.done, s :: ss)
    | e => (.done, .expr e.toExpr 0 :: ss)

/-- The variable with the name and what is shown after it. -/
noncomputable def declaration (name : String) : List Fragment → VarDecl
  | word w :: parts =>
    if w = "constant" then
      match parts with
      | word w :: parts => ⟨name, typeNamed w, true, parts.head?.map toExpr, 0⟩
      | _ => ⟨name, .void, true, none, 0⟩
    else ⟨name, typeNamed w, false, parts.head?.map toExpr, 0⟩
  | _ => ⟨name, .void, false, none, 0⟩

/-- What a list shows that begins with the word. -/
noncomputable def assemble (head : String) (parts : List Fragment) : Fragment :=
  match head, parts with
  | "group", [e] => expr (.group e.toExpr 0)
  | "call", word f :: args => expr (.call f (args.map toExpr) 0)
  | "cast", [word t, e] => expr (.cast (typeNamed t) e.toExpr 0)
  | "var", word x :: parts => var (declaration x parts)
  | "func", [word f, ps, word t, b] => statement (.func ⟨f, typeNamed t, ps.toParams, b.toBlock, 0⟩)
  | "print", e :: es => statement (.print e.toExpr (es.map toExpr) 0)
  | "block", parts => block ⟨(toStatements parts).2, 0⟩
  | "if", [c, b] => first c.toExpr b.toBlock
  | "elif", [c, b] => elif c.toExpr b.toBlock
  | "else", [b] => otherwise b.toBlock
  | "while", [c, b] => statement (.loop c.toExpr b.toBlock 0)
  | "for", [d, c, s, b] => statement (.count d.toVar c.toExpr s.toExpr b.toBlock 0)
  | "return", parts => statement (.return_ (parts.head?.map toExpr) 0)
  | "break", _ => statement (.exit .break_ 0)
  | "remit", _ => statement (.exit .remit_ 0)
  | symbol, [e] => expr (.unary (unaryNamed symbol) e.toExpr 0)
  | symbol, l :: r :: _ =>
    match assignNamed? symbol, l with
    | some op, word x => expr (.assign op x r.toExpr 0)
    | _, _ => expr (.binary (binaryNamed symbol) l.toExpr r.toExpr 0)
  | _, parts => params parts

end Fragment

open Fragment

mutual

/-- What an S-expression shows. -/
noncomputable def Sexpr.read : Sexpr → Fragment
  | .atom w => .word w
  | .list ss =>
    match Sexpr.readAll ss with
    | .word head :: parts => assemble head parts
    | parts => .params parts

/-- What each of several S-expressions shows. -/
noncomputable def Sexpr.readAll : List Sexpr → List Fragment
  | [] => []
  | s :: ss => s.read :: Sexpr.readAll ss

end

theorem Sexpr.read_node (head : String) (items : List Sexpr) :
    (Sexpr.node head items).read = assemble head (Sexpr.readAll items) := by
  rw [node, read, readAll, read]

theorem Sexpr.readAll_append (ss ts : List Sexpr) :
    Sexpr.readAll (ss ++ ts) = Sexpr.readAll ss ++ Sexpr.readAll ts := by
  induction ss with
  | nil => rfl
  | cons s ss ih => rw [List.cons_append, readAll, readAll, ih, List.cons_append]

/-! ## Reading what is shown -/

/-- The fragment shows the expression. -/
inductive ShowsExpr : Fragment → Expr → Prop
  | word {w : String} {e : Expr} : ShowsLeaf w e → ShowsExpr (.word w) e
  | expr (e : Expr) : ShowsExpr (.expr e) e

section ShowsExpr

variable {part : Fragment} {parts : List Fragment} {e : Expr} {ss : List Statement}

theorem ShowsExpr.toExpr_eq (h : ShowsExpr part e) : part.toExpr = e := by
  cases h with
  | word hw => exact leafOf_eq hw
  | expr e => rfl

theorem ShowsExpr.toStatements_eq (h : ShowsExpr part e) (hparts : toStatements parts = (.done, ss)) :
    toStatements (part :: parts) = (.done, .expr e 0 :: ss) := by
  cases h with
  | word hw => rw [toStatements, hparts, ← leafOf_eq hw]; rfl
  | expr e => rw [toStatements, hparts]; rfl

end ShowsExpr

theorem assemble_unary (op : UnaryOperator) (e : Fragment) :
    assemble op.symbol [e] = .expr (.unary op e.toExpr 0) := by
  cases op <;> rfl

theorem assemble_binary (op : BinaryOperator) (l r : Fragment) :
    assemble op.symbol [l, r] = .expr (.binary op l.toExpr r.toExpr 0) := by
  rcases op with op | op | op | op | op | op <;> cases op <;> rfl

theorem assemble_assign (op : AssignOperator) (x : String) (e : Fragment) :
    assemble op.symbol [.word x, e] = .expr (.assign op x e.toExpr 0) := by
  rcases op with _ | op
  · rfl
  · cases op <;> rfl

/-- What is shown after the name of a variable tells its type, whether it is a constant, and the value. -/
theorem assemble_declared (name : String) (constant : Bool) (type : ValueType) (initial : List Sexpr) :
    assemble "var" (Sexpr.readAll (declared name constant type ++ initial)) =
      .var ⟨name, type, constant, (Sexpr.readAll initial).head?.map toExpr, 0⟩ := by
  have hname : type.name ≠ "constant" := by cases type <;> decide
  have hread : assemble "var" (Sexpr.readAll (declared name constant type ++ initial)) =
      .var (declaration name (Sexpr.readAll
        ((if constant then [Sexpr.atom "constant"] else []) ++ [.atom type.name] ++ initial))) := rfl
  rw [hread]
  cases constant with
  | false =>
    have hplain : declaration name (Sexpr.readAll
        ((if false then [Sexpr.atom "constant"] else []) ++ [.atom type.name] ++ initial)) =
        if type.name = "constant" then _ else
          ⟨name, typeNamed type.name, false, (Sexpr.readAll initial).head?.map toExpr, 0⟩ := rfl
    rw [hplain, if_neg hname, typeNamed_name]
  | true =>
    have hconstant : declaration name (Sexpr.readAll
        ((if true then [Sexpr.atom "constant"] else []) ++ [.atom type.name] ++ initial)) =
          ⟨name, typeNamed type.name, true, (Sexpr.readAll initial).head?.map toExpr, 0⟩ := rfl
    rw [hconstant, typeNamed_name]

theorem readAll_params (ps : List Param) : ((Sexpr.list (ps.map Param.sexpr)).read).toParams =
    ps.map (Param.reline fun _ => 0) := by
  have hparam (p : Param) : p.sexpr.read = .var ⟨p.name, p.type, p.constant, none, 0⟩ := by
    have hdeclared : assemble "var" (Sexpr.readAll (declared p.name p.constant p.type ++ [])) = _ :=
      assemble_declared p.name p.constant p.type []
    rwa [List.append_nil, ← Sexpr.read_node] at hdeclared
  have hall (ps : List Param) : (Sexpr.readAll (ps.map Param.sexpr)).map (fun part : Fragment =>
      (⟨part.toVar.name, part.toVar.type, part.toVar.constant, 0⟩ : Param)) =
      ps.map (Param.reline fun _ => 0) := by
    induction ps with
    | nil => rfl
    | cons p ps ih =>
      rw [List.map_cons, Sexpr.readAll, List.map_cons, ih, hparam]
      rfl
  rw [← hall, Sexpr.read]
  -- The first item is no word, so the list is one of parameters.
  cases ps with
  | nil => rfl
  | cons p ps =>
    rw [List.map_cons, Sexpr.readAll, hparam]
    rfl

section Statements

variable {parts : List Fragment} {bs : Branches} {ss : List Statement}

/-- An S-expression that shows a statement by itself. -/
theorem toStatements_read (hparts : toStatements parts = (.done, ss)) {x : Sexpr} {s : Statement}
    (hread : x.read = .statement s) :
    toStatements (Sexpr.readAll [x] ++ parts) = (.done, s :: ss) := by
  rw [Sexpr.readAll, hread]
  show toStatements (.statement s :: parts) = _
  rw [toStatements, hparts]

theorem toStatements_first (hparts : toStatements parts = (bs, ss)) (c : Expr) (b : Block) :
    toStatements (.first c b :: parts) = (.done, .cond c b bs 0 :: ss) := by
  rw [toStatements, hparts]

theorem toStatements_elif (hparts : toStatements parts = (bs, ss)) (c : Expr) (b : Block) :
    toStatements (.elif c b :: parts) = (.elif c b bs 0, ss) := by
  rw [toStatements, hparts]

theorem toStatements_otherwise (hparts : toStatements parts = (.done, ss)) (b : Block) :
    toStatements (.otherwise b :: parts) = (.otherwise b 0, ss) := by
  rw [toStatements, hparts]

end Statements

mutual

/-- An expression is read as itself, apart from what is not shown of it. -/
theorem Expr.read_sexpr : ∀ e : Expr, LexedAll e.tokens →
    ShowsExpr e.sexpr.read (e.nameInfinity.reline fun _ => 0)
  | .literal v n, h => by
    rw [tokens, lexedAll_cons] at h
    rw [sexpr, Sexpr.read, nameInfinity]
    exact .word (v.showsLeaf h.1 n)
  | .name x n, h => by
    rw [tokens, lexedAll_cons] at h
    rw [sexpr, Sexpr.read, nameInfinity, reline]
    exact .word (.name h.1.identifier)
  | .group e n, h => by
    simp only [tokens, lexedAll_cons, lexedAll_append] at h
    rw [sexpr, Sexpr.read_node, nameInfinity, reline, ← (e.read_sexpr h.1.2).toExpr_eq]
    exact .expr _
  | .call f args n, h => by
    simp only [tokens, List.cons_append, lexedAll_cons, lexedAll_append] at h
    have hargs := Expr.readAll_sexprs args (lexedAll_separatedTokens h.2.2.1)
    rw [sexpr, Sexpr.read_node, nameInfinity, reline, ← hargs]
    exact .expr _
  | .cast t e n, h => by
    simp only [tokens, List.cons_append, List.nil_append, lexedAll_cons, lexedAll_append] at h
    rw [sexpr, Sexpr.read_node, nameInfinity, reline, ← (e.read_sexpr h.2.2.2.2.2.1).toExpr_eq]
    have hcast : assemble "cast" (Sexpr.readAll [.atom t.name, e.sexpr]) =
        .expr (.cast (typeNamed t.name) e.sexpr.read.toExpr 0) := rfl
    rw [hcast, typeNamed_name]
    exact .expr _
  | .unary op e n, h => by
    rw [tokens, lexedAll_cons] at h
    rw [sexpr, Sexpr.read_node, nameInfinity, reline, ← (e.read_sexpr h.2).toExpr_eq]
    rw [Sexpr.readAll, Sexpr.readAll, assemble_unary]
    exact .expr _
  | .binary op l r n, h => by
    simp only [tokens, lexedAll_append] at h
    rw [sexpr, Sexpr.read_node, nameInfinity, reline, ← (l.read_sexpr h.1.1).toExpr_eq,
      ← (r.read_sexpr h.2).toExpr_eq]
    rw [Sexpr.readAll, Sexpr.readAll, Sexpr.readAll, assemble_binary]
    exact .expr _
  | .assign op x e n, h => by
    simp only [tokens, lexedAll_cons] at h
    rw [sexpr, Sexpr.read_node, nameInfinity, reline, ← (e.read_sexpr h.2.2).toExpr_eq]
    rw [Sexpr.readAll, Sexpr.readAll, Sexpr.readAll, Sexpr.read, assemble_assign]
    exact .expr _

theorem Expr.readAll_sexprs : ∀ es : List Expr, (∀ ts ∈ Expr.tokensAll es, LexedAll ts) →
    (Sexpr.readAll (Expr.sexprs es)).map toExpr =
      Expr.relineAll (fun _ => 0) (Expr.nameInfinityAll es)
  | [], _ => rfl
  | e :: es, h => by
    rw [tokensAll, List.forall_mem_cons] at h
    rw [sexprs, Sexpr.readAll, List.map_cons, (e.read_sexpr h.1).toExpr_eq, Expr.readAll_sexprs es h.2,
      nameInfinityAll, relineAll]

end

theorem VarDecl.read_sexpr (d : VarDecl) (h : LexedAll d.tokens) :
    d.sexpr.read = .var (d.nameInfinity.reline fun _ => 0) := by
  rcases d with ⟨name, type, constant, initial, n⟩
  simp only [VarDecl.tokens, List.cons_append, lexedAll_cons, lexedAll_append] at h
  rw [VarDecl.sexpr, Sexpr.read_node, assemble_declared]
  cases initial with
  | none => rfl
  | some e =>
    simp only [Option.elim_some, lexedAll_cons] at h
    have he := (e.read_sexpr h.2.2.1.2.2).toExpr_eq
    exact congrArg (fun value => Fragment.var ⟨name, type, constant, some value, 0⟩) he

mutual

theorem Block.read_sexpr : ∀ b : Block, LexedAll b.tokens →
    b.sexpr.read = .block (b.nameInfinity.reline fun _ => 0)
  | ⟨statements, n⟩, h => by
    simp only [Block.tokens, List.cons_append, lexedAll_cons, lexedAll_append] at h
    have hread := Statement.readAll_sexprs statements h.2.1
    rw [Block.sexpr, Sexpr.read_node, Block.nameInfinity, Block.reline]
    exact congrArg (fun shown : Branches × List Statement => Fragment.block ⟨shown.2, 0⟩) hread

theorem Branches.readAll_sexprs : ∀ bs : Branches, LexedAll bs.tokens → ∀ parts ss,
    toStatements parts = (.done, ss) →
    toStatements (Sexpr.readAll bs.sexprs ++ parts) = (bs.nameInfinity.reline fun _ => 0, ss)
  | .done, _, parts, ss, hparts => by
    rw [Branches.sexprs, Branches.nameInfinity, Branches.reline]
    exact hparts
  | .elif c b rest n, h, parts, ss, hparts => by
    simp only [Branches.tokens, List.cons_append, lexedAll_cons, lexedAll_append] at h
    have hread : (Sexpr.node "elif" [c.sexpr, b.sexpr]).read =
        .elif c.sexpr.read.toExpr b.sexpr.read.toBlock := rfl
    rw [(c.read_sexpr h.2.1.1).toExpr_eq, b.read_sexpr h.2.1.2] at hread
    rw [Branches.sexprs, Branches.nameInfinity, Branches.reline, Sexpr.readAll, hread]
    exact toStatements_elif (rest.readAll_sexprs h.2.2 parts ss hparts) _ _
  | .otherwise b n, h, parts, ss, hparts => by
    simp only [Branches.tokens, lexedAll_cons] at h
    have hread : (Sexpr.node "else" [b.sexpr]).read = .otherwise b.sexpr.read.toBlock := rfl
    rw [b.read_sexpr h.2] at hread
    rw [Branches.sexprs, Branches.nameInfinity, Branches.reline, Sexpr.readAll, hread]
    exact toStatements_otherwise hparts _

theorem Function.read_sexpr : ∀ f : Function, LexedAll f.tokens →
    f.sexpr.read = .statement (.func (f.nameInfinity.reline fun _ => 0))
  | ⟨name, result, ps, body, n⟩, h => by
    simp only [Function.tokens, List.cons_append, List.nil_append, lexedAll_cons, lexedAll_append] at h
    have hread : (Sexpr.node "func"
          [.atom name, .list (ps.map Param.sexpr), .atom result.name, body.sexpr]).read =
        .statement (.func ⟨name, typeNamed result.name,
          ((Sexpr.list (ps.map Param.sexpr)).read).toParams, body.sexpr.read.toBlock, 0⟩) := rfl
    rw [typeNamed_name, readAll_params, body.read_sexpr h.2.2.2.2.2] at hread
    rw [Function.sexpr, hread, Function.nameInfinity, Function.reline]
    rfl

/-- A statement is read as itself, apart from what is not shown of it. -/
theorem Statement.readAll_sexpr : ∀ s : Statement, LexedAll s.tokens → ∀ parts ss,
    toStatements parts = (.done, ss) →
    toStatements (Sexpr.readAll s.sexpr ++ parts) = (.done, (s.nameInfinity.reline fun _ => 0) :: ss)
  | .var d, h, parts, ss, hparts => by
    rw [Statement.tokens] at h
    rw [Statement.sexpr, Statement.nameInfinity, Statement.reline, Sexpr.readAll, d.read_sexpr h]
    show toStatements (.var _ :: parts) = _
    rw [toStatements, hparts]
  | .func f, h, parts, ss, hparts => by
    rw [Statement.tokens] at h
    rw [Statement.sexpr, Statement.nameInfinity, Statement.reline]
    exact toStatements_read hparts (f.read_sexpr h)
  | .expr e n, h, parts, ss, hparts => by
    simp only [Statement.tokens, lexedAll_append] at h
    rw [Statement.sexpr, Statement.nameInfinity, Statement.reline, Sexpr.readAll]
    exact (e.read_sexpr h.1).toStatements_eq hparts
  | .print e es n, h, parts, ss, hparts => by
    simp only [Statement.tokens, List.cons_append, lexedAll_cons, lexedAll_append] at h
    have hread : (Sexpr.node "print" (e.sexpr :: Expr.sexprs es)).read =
        .statement (.print e.sexpr.read.toExpr
          ((Sexpr.readAll (Expr.sexprs es)).map toExpr) 0) := rfl
    rw [(e.read_sexpr h.2.1.1).toExpr_eq,
      Expr.readAll_sexprs es (lexedAll_followingTokens h.2.1.2)] at hread
    rw [Statement.sexpr, Statement.nameInfinity, Statement.reline, ← Expr.relineAll_eq_map]
    exact toStatements_read hparts hread
  | .block b, h, parts, ss, hparts => by
    rw [Statement.tokens] at h
    rw [Statement.sexpr, Statement.nameInfinity, Statement.reline, Sexpr.readAll, b.read_sexpr h]
    show toStatements (.block _ :: parts) = _
    rw [toStatements, hparts]
  | .cond c b rest n, h, parts, ss, hparts => by
    simp only [Statement.tokens, List.cons_append, lexedAll_cons, lexedAll_append] at h
    have hread : (Sexpr.node "if" [c.sexpr, b.sexpr]).read =
        .first c.sexpr.read.toExpr b.sexpr.read.toBlock := rfl
    rw [(c.read_sexpr h.2.1.1).toExpr_eq, b.read_sexpr h.2.1.2] at hread
    rw [Statement.sexpr, Statement.nameInfinity, Statement.reline, Sexpr.readAll, hread]
    exact toStatements_first (rest.readAll_sexprs h.2.2 parts ss hparts) _ _
  | .loop c b n, h, parts, ss, hparts => by
    simp only [Statement.tokens, List.cons_append, lexedAll_cons, lexedAll_append] at h
    have hread : (Sexpr.node "while" [c.sexpr, b.sexpr]).read =
        .statement (.loop c.sexpr.read.toExpr b.sexpr.read.toBlock 0) := rfl
    rw [(c.read_sexpr h.2.1).toExpr_eq, b.read_sexpr h.2.2] at hread
    rw [Statement.sexpr, Statement.nameInfinity, Statement.reline]
    exact toStatements_read hparts hread
  | .count d c s b n, h, parts, ss, hparts => by
    simp only [Statement.tokens, List.cons_append, lexedAll_cons, lexedAll_append] at h
    obtain ⟨-, ⟨⟨⟨hd, hc⟩, -⟩, hs⟩, hb⟩ := h
    have hread : (Sexpr.node "for" [d.sexpr, c.sexpr, s.sexpr, b.sexpr]).read =
        .statement (.count d.sexpr.read.toVar c.sexpr.read.toExpr
          s.sexpr.read.toExpr b.sexpr.read.toBlock 0) := rfl
    rw [d.read_sexpr hd, (c.read_sexpr hc).toExpr_eq, (s.read_sexpr hs).toExpr_eq,
      b.read_sexpr hb] at hread
    rw [Statement.sexpr, Statement.nameInfinity, Statement.reline]
    exact toStatements_read hparts hread
  | .return_ none n, _, parts, ss, hparts => by
    rw [Statement.sexpr, Statement.nameInfinity, Statement.reline]
    exact toStatements_read hparts rfl
  | .return_ (some e) n, h, parts, ss, hparts => by
    simp only [Statement.tokens, List.cons_append, lexedAll_cons, lexedAll_append, Option.elim_some] at h
    have hread : (Sexpr.node "return" [e.sexpr]).read =
        .statement (.return_ (some e.sexpr.read.toExpr) 0) := rfl
    rw [(e.read_sexpr h.2.1).toExpr_eq] at hread
    rw [Statement.sexpr, Statement.nameInfinity, Statement.reline, Option.map_some, Option.toList_some]
    exact toStatements_read hparts hread
  | .exit k n, _, parts, ss, hparts => by
    rw [Statement.sexpr, Statement.nameInfinity, Statement.reline]
    cases k
    · exact toStatements_read hparts rfl
    · exact toStatements_read hparts rfl

theorem Statement.readAll_sexprs : ∀ ss : List Statement, LexedAll (Statement.tokensAll ss) →
    toStatements (Sexpr.readAll (Statement.sexprs ss)) =
      (.done, Statement.relineAll (fun _ => 0) (Statement.nameInfinityAll ss))
  | [], _ => rfl
  | s :: ss, h => by
    rw [Statement.tokensAll, lexedAll_append] at h
    rw [Statement.sexprs, Sexpr.readAll_append, Statement.nameInfinityAll, Statement.relineAll]
    exact s.readAll_sexpr h.1 _ _ (Statement.readAll_sexprs ss h.2)

end

/-! ## Statements of sources -/

theorem Statement.lexedAll_tokensAll_iff {ss : List Statement} :
    LexedAll (Statement.tokensAll ss) ↔ ∀ s ∈ ss, LexedAll s.tokens := by
  induction ss with
  | nil => simp [Statement.tokensAll]
  | cons s ss ih => rw [Statement.tokensAll, lexedAll_append, ih, List.forall_mem_cons]

theorem Block.lexedAll_statements (b : Block) (h : LexedAll b.tokens) :
    ∀ t ∈ b.statements, LexedAll t.tokens := by
  obtain ⟨statements, n⟩ := b
  simp only [Block.tokens, List.cons_append, lexedAll_cons, lexedAll_append] at h
  exact Statement.lexedAll_tokensAll_iff.1 h.2.1

theorem Branches.lexedAll_inner (bs : Branches) (h : LexedAll bs.tokens) :
    ∀ t ∈ bs.inner, LexedAll t.tokens := by
  cases bs with
  | done => exact List.forall_mem_nil _
  | elif c b rest n =>
    simp only [Branches.tokens, List.cons_append, lexedAll_cons, lexedAll_append] at h
    exact List.forall_mem_append.2 ⟨b.lexedAll_statements h.2.1.2, rest.lexedAll_inner h.2.2⟩
  | otherwise b n =>
    rw [Branches.tokens, lexedAll_cons] at h
    exact b.lexedAll_statements h.2

theorem Statement.lexedAll_inner (s : Statement) (h : LexedAll s.tokens) :
    ∀ t ∈ s.inner, LexedAll t.tokens := by
  cases s with
  | block b =>
    rw [Statement.tokens] at h
    exact b.lexedAll_statements h
  | cond c b rest n =>
    simp only [Statement.tokens, List.cons_append, lexedAll_cons, lexedAll_append] at h
    exact List.forall_mem_append.2 ⟨b.lexedAll_statements h.2.1.2, rest.lexedAll_inner h.2.2⟩
  | loop c b n =>
    simp only [Statement.tokens, List.cons_append, lexedAll_cons, lexedAll_append] at h
    exact b.lexedAll_statements h.2.2
  | count d c s b n =>
    simp only [Statement.tokens, List.cons_append, lexedAll_cons, lexedAll_append] at h
    exact b.lexedAll_statements h.2.2
  | _ => exact List.forall_mem_nil _

theorem Function.lexedAll_body (f : Function) (h : LexedAll f.tokens) :
    ∀ t ∈ f.body.statements, LexedAll t.tokens := by
  obtain ⟨name, result, params, body, n⟩ := f
  simp only [Function.tokens, List.cons_append, List.nil_append, lexedAll_cons, lexedAll_append] at h
  exact body.lexedAll_statements h.2.2.2.2.2

/-- The statement stands in what is read from the source, at any depth. -/
def Statement.ReadFrom (source : String) (s : Statement) : Prop :=
  ∃ ts file c, Token.ofText source = .ok ts ∧ Program.Stands ⟨file, (Grammar.parse ts).statements⟩ c s

/-- The tokens of a statement that is read are ones that lexemes stand for. -/
theorem Statement.ReadFrom.lexedAll {source : String} {s : Statement} (h : s.ReadFrom source) :
    LexedAll s.tokens := by
  obtain ⟨ts, file, c, hts, hstands⟩ := h
  induction hstands with
  | top hs =>
    obtain ⟨ls, rest, ⟨-, -, -, hspelled⟩, hls⟩ := Grammar.accounted_of_mem_parse hs
    intro t ht
    obtain ⟨l, hl, rfl⟩ := List.mem_map.1 (hspelled.subset ht)
    exact lexed_of_ofText hts l (hls hl)
  | inside _ ht ih => exact Statement.lexedAll_inner _ ih _ ht
  | @body c f t _ ht ih =>
    rw [Statement.tokens] at ih
    exact f.lexedAll_body ih t ht

/-! ## Texts -/

/-- **The text of a statement determines the statement.** Two statements that are read from sources, be they
the same or not, have the same text if and only if they differ in nothing but their lines, once the infinite
floats that occur in them are taken for the name `inf`. -/
theorem texts_determine_statements {source source' : String} {s s' : Statement}
    (h : s.ReadFrom source) (h' : s'.ReadFrom source') :
    s.text = s'.text ↔ Statement.SameButLines [s.nameInfinity] [s'.nameInfinity] := by
  constructor
  · intro htext
    have hsexpr : s.sexpr = s'.sexpr :=
      Sexpr.eq_of_spaced (s.legible h.lexedAll) (s'.legible h'.lexedAll) htext
    have hread := s.readAll_sexpr h.lexedAll [] [] rfl
    have hread' := s'.readAll_sexpr h'.lexedAll [] [] rfl
    rw [hsexpr, hread'] at hread
    exact (congrArg Prod.snd hread).symm
  · intro hsame
    have hreline := (List.cons.inj hsame).1
    unfold Statement.text
    rw [← s.sexpr_nameInfinity fun _ => 0, ← s'.sexpr_nameInfinity fun _ => 0, hreline]

/-- A numeral that is too large for a float is shown as the name `inf`, which may stand elsewhere. -/
theorem infinite_float_shown_as_name :
    Statement.ReadFrom "1.0e999;" (.expr (.literal (.float (Binary64.infinity false)) 1) 1) ∧
      Statement.ReadFrom "f: func() \x7b\n  inf;\n\x7d" (.expr (.name "inf" 2) 2) ∧
      Statement.text (.expr (.literal (.float (Binary64.infinity false)) 1) 1) =
        Statement.text (.expr (.name "inf" 2) 2) := by
  have hfloat : Statement.ReadFrom "1.0e999;" (.expr (.literal (.float (Binary64.infinity false)) 1) 1) := by
    refine ⟨[⟨.float (Binary64.infinity false), 1⟩, ⟨.mark .semicolon, 1⟩], "", .top, ?_, ?_⟩
    · cbv
    · exact .top List.mem_cons_self
  have hname : Statement.ReadFrom "f: func() \x7b\n  inf;\n\x7d" (.expr (.name "inf" 2) 2) := by
    refine ⟨[⟨.identifier "f", 1⟩, ⟨.mark .colon, 1⟩, ⟨.keyword .func_, 1⟩, ⟨.mark .openParen, 1⟩,
      ⟨.mark .closeParen, 1⟩, ⟨.mark .openBrace, 1⟩, ⟨.identifier "inf", 2⟩, ⟨.mark .semicolon, 2⟩,
      ⟨.mark .closeBrace, 3⟩], "", _, ?_, .body (.top List.mem_cons_self) List.mem_cons_self⟩
    cbv
  exact ⟨hfloat, hname, (texts_determine_statements hfloat hname).2 rfl⟩

end Scriptling
