import Scriptling.Proofs.Grammar.Depths
import Scriptling.Proofs.Grammar.Words

/-!
# Scriptling.Proofs.Grammar.Derivations -- the tokens that a node was read from

Every node of a tree carries a line, and messages rely on it. It ought to be that of the first token of the
node, so it has to be said which tokens those of the node are. A node is made of items, which are tokens and
nodes again (`Node.items`), and to divide tokens among the items of a node, and among those of its nodes, is a
derivation (`Derives`). Lines do not occur in it. A statement has one derivation from the tokens that it was
read from, and no other (`derives_of_written`, `Derives.unique`), so each of its nodes has its own part of
them.

The main result is `nodes_begin_on_their_lines`.
-/

set_option autoImplicit false

namespace Scriptling

namespace Grammar

/-! ## What nodes are made of -/

/-- The nodes of trees. The links of a conditional after the first one are nodes of their own. -/
inductive Node where
  | expr (e : Expr)
  | var (d : VarDecl)
  | param (p : Param)
  | block (b : Block)
  | func (f : Function)
  | elif (condition : Expr) (body : Block) (rest : Branches) (line : Nat)
  | otherwise (body : Block) (line : Nat)
  | statement (s : Statement)

/-- The line that a node carries. -/
def Node.line : Node → Nat
  | .expr e => e.line
  | .var d => d.line
  | .param p => p.line
  | .block b => b.line
  | .func f => f.line
  | .elif _ _ _ n => n
  | .otherwise _ n => n
  | .statement s => s.line

/-- What a node is made of. -/
inductive Item where
  | token (t : Token)
  | node (N : Node)
  /-- The result type of a function and its body. -/
  | result (type : ValueType) (body : Block)

/-- The node that an item leads to. -/
def Item.node? : Item → Option Node
  | .token _ => none
  | .node N => some N
  | .result _ body => some (.block body)

/-- Nodes each of which follows a comma. -/
def followingItems : List Node → List Item
  | [] => []
  | N :: Ns => .token (.mark .comma) :: .node N :: followingItems Ns

/-- Nodes with commas between them. -/
def separatedItems : List Node → List Item
  | [] => []
  | N :: Ns => .node N :: followingItems Ns

/-- A type, and whether it is that of a constant. -/
def typeItems (constant : Bool) (type : ValueType) : List Item :=
  (if constant then [.token (.keyword .constant_)] else []) ++ [.token (.typeName type)]

/-- The next link of a conditional. -/
def linkItems : Branches → List Item
  | .done => []
  | .elif c b rest n => [.node (.elif c b rest n)]
  | .otherwise b n => [.node (.otherwise b n)]

/-- What a node is made of, in order. -/
def Node.items : Node → List Item
  | .expr (.literal v _) => [.token v.token]
  | .expr (.name x _) => [.token (.identifier x)]
  | .expr (.group e _) => [.token (.mark .openParen), .node (.expr e), .token (.mark .closeParen)]
  | .expr (.call f args _) =>
    [.token (.identifier f), .token (.mark .openParen)] ++ separatedItems (args.map .expr)
      ++ [.token (.mark .closeParen)]
  | .expr (.cast t e _) =>
    [.token (.keyword .cast_), .token (.operator (.comparison .less)), .token (.typeName t),
      .token (.operator (.comparison .greater)), .token (.mark .openParen), .node (.expr e),
      .token (.mark .closeParen)]
  | .expr (.unary op e _) => [.token op.token, .node (.expr e)]
  | .expr (.binary op l r _) => [.node (.expr l), .token (.operator op), .node (.expr r)]
  | .expr (.assign op x e _) => [.token (.identifier x), .token (.assign op), .node (.expr e)]
  | .var d =>
    [.token (.identifier d.name), .token (.mark .colon)] ++ typeItems d.constant d.type
      ++ (d.initial.elim [] fun e => [.token (.assign .plain), .node (.expr e)])
      ++ [.token (.mark .semicolon)]
  | .param p =>
    [.token (.identifier p.name), .token (.mark .colon)] ++ typeItems p.constant p.type
  | .block b =>
    [.token (.mark .openBrace)] ++ b.statements.map (fun s => .node (.statement s))
      ++ [.token (.mark .closeBrace)]
  | .func f =>
    [.token (.identifier f.name), .token (.mark .colon), .token (.keyword .func_),
      .token (.mark .openParen)] ++ separatedItems (f.params.map .param)
      ++ [.token (.mark .closeParen)] ++ [.result f.result f.body]
  | .elif c b rest _ =>
    [.token (.keyword .elif_), .node (.expr c), .node (.block b)] ++ linkItems rest
  | .otherwise b _ => [.token (.keyword .else_), .node (.block b)]
  | .statement (.var d) => [.node (.var d)]
  | .statement (.func f) => [.node (.func f)]
  | .statement (.expr e _) => [.node (.expr e), .token (.mark .semicolon)]
  | .statement (.print e es _) =>
    [.token (.keyword .print_), .node (.expr e)] ++ followingItems (es.map .expr)
      ++ [.token (.mark .semicolon)]
  | .statement (.block b) => [.node (.block b)]
  | .statement (.cond c b rest _) =>
    [.token (.keyword .if_), .node (.expr c), .node (.block b)] ++ linkItems rest
  | .statement (.loop c b _) => [.token (.keyword .while_), .node (.expr c), .node (.block b)]
  | .statement (.count d c s b _) =>
    [.token (.keyword .for_), .node (.var d), .node (.expr c), .token (.mark .semicolon),
      .node (.expr s), .node (.block b)]
  | .statement (.return_ v _) =>
    [.token (.keyword .return_)] ++ (v.elim [] fun e => [.node (.expr e)])
      ++ [.token (.mark .semicolon)]
  | .statement (.exit k _) => [.token (.keyword k.keyword), .token (.mark .semicolon)]

/-- The first node is the second one, or a part of it at any depth. -/
inductive Node.Within : Node → Node → Prop
  | refl (N : Node) : Within N N
  | child {M N N' : Node} : N' ∈ N.items.filterMap Item.node? → Within M N' → Within M N

/-! ## Derivations -/

/-- A node and the tokens that it is written with. -/
structure Part where
  node : Node
  lexemes : List Lexeme

/-- The tokens are divided among the items, and those of each node among its own items. The parts are those of
all nodes. A token may be on any line. -/
inductive Derives : List Item → List Lexeme → List Part → Prop
  | nil : Derives [] [] []
  | token {t : Token} {n : Nat} {items : List Item} {ls : List Lexeme} {parts : List Part} :
    Derives items ls parts → Derives (.token t :: items) (⟨t, n⟩ :: ls) parts
  | node {N : Node} {items : List Item} {front ls : List Lexeme} {inner parts : List Part} :
    Derives N.items front inner → Derives items ls parts →
    Derives (.node N :: items) (front ++ ls) (⟨N, front⟩ :: inner ++ parts)
  /-- The result type is said. -/
  | result {type : ValueType} {body : Block} {items : List Item} {ls : List Lexeme} {parts : List Part} :
    Derives (.token (.mark .arrow) :: .token (.typeName type) :: .node (.block body) :: items) ls parts →
    Derives (.result type body :: items) ls parts
  /-- The result type is `void` and not said. -/
  | noResult {body : Block} {items : List Item} {ls : List Lexeme} {parts : List Part} :
    Derives (.node (.block body) :: items) ls parts → Derives (.result .void body :: items) ls parts

section Derives

variable {items items' : List Item} {ls ls' rest rest' : List Lexeme} {parts parts' : List Part}

theorem Derives.append (h : Derives items ls parts) (h' : Derives items' ls' parts') :
    Derives (items ++ items') (ls ++ ls') (parts ++ parts') := by
  induction h with
  | nil => exact h'
  | token _ ih => exact .token ih
  | node hN _ _ ih =>
    rw [List.append_assoc, List.cons_append, List.append_assoc]
    exact .node hN ih
  | result _ ih => exact .result ih
  | noResult _ ih => exact .noResult ih

/-- A block begins with its brace. -/
theorem Derives.openBrace {b : Block} (h : Derives (.node (.block b) :: items) ls parts) :
    ∃ n tail, ls = ⟨.mark .openBrace, n⟩ :: tail := by
  obtain ⟨statements, line⟩ := b
  cases h with
  | node hblock _ =>
    cases hblock with
    | token _ => exact ⟨_, _, rfl⟩

/-- There is one way at most to divide tokens, and it tells where those of the items end. -/
theorem Derives.unique_prefix (h : Derives items ls parts) (h' : Derives items ls' parts')
    (hsame : ls ++ rest = ls' ++ rest') : ls = ls' ∧ parts = parts' := by
  induction h generalizing ls' parts' rest rest' with
  | nil =>
    cases h'
    exact ⟨rfl, rfl⟩
  | token _ ih =>
    cases h' with
    | token h' =>
      obtain ⟨hl, hls⟩ := List.cons.inj hsame
      obtain ⟨rfl, rfl⟩ := ih h' hls
      rw [hl]
      exact ⟨rfl, rfl⟩
  | node _ _ ihN ih =>
    cases h' with
    | node hN' h' =>
      rw [List.append_assoc, List.append_assoc] at hsame
      obtain ⟨rfl, rfl⟩ := ihN hN' hsame
      obtain ⟨rfl, rfl⟩ := ih h' (List.append_cancel_left hsame)
      exact ⟨rfl, rfl⟩
  -- Whether the result type is said shows in the next token: it is an arrow or the brace of the body.
  | result h ih =>
    cases h' with
    | result h' => exact ih h' hsame
    | noResult h' =>
      obtain ⟨n, tail, rfl⟩ := h'.openBrace
      cases h
      cases hsame
  | noResult h ih =>
    cases h' with
    | result h' =>
      obtain ⟨n, tail, rfl⟩ := h.openBrace
      cases h'
      cases hsame
    | noResult h' => exact ih h' hsame

theorem Derives.unique (h : Derives items ls parts) (h' : Derives items ls parts') : parts = parts' := by
  have hsame : ls ++ [] = ls ++ [] := rfl
  exact (h.unique_prefix h' hsame).2

/-- The tokens of a node stand next to each other. -/
theorem Derives.stretch (h : Derives items ls parts) :
    ∀ p ∈ parts, ∃ before after, ls = before ++ p.lexemes ++ after := by
  induction h with
  | nil => exact List.forall_mem_nil _
  | @token t n _ _ _ _ ih =>
    intro p hp
    obtain ⟨before, after, rfl⟩ := ih p hp
    exact ⟨⟨t, n⟩ :: before, after, rfl⟩
  | @node N _ front ls _ _ _ _ ihN ih =>
    intro p hp
    rw [List.cons_append, List.mem_cons, List.mem_append] at hp
    rcases hp with rfl | hp | hp
    · exact ⟨[], ls, rfl⟩
    · obtain ⟨before, after, rfl⟩ := ihN p hp
      exact ⟨before, after ++ ls, List.append_assoc _ _ _⟩
    · obtain ⟨before, after, rfl⟩ := ih p hp
      exact ⟨front ++ before, after, by simp only [List.append_assoc]⟩
  | result _ ih => exact ih
  | noResult _ ih => exact ih

/-- No node is left out. -/
theorem Derives.complete {M N : Node} (h : Derives items ls parts)
    (hN : N ∈ items.filterMap Item.node?) (hM : M.Within N) : ∃ ms, ⟨M, ms⟩ ∈ parts := by
  induction h generalizing N with
  | nil => cases hN
  | token _ ih => exact ih hN hM
  | @node _ _ front _ _ _ _ _ ihN ih =>
    rcases List.mem_cons.1 hN with rfl | hN
    · cases hM with
      | refl => exact ⟨front, List.mem_cons_self⟩
      | child hchild hM =>
        obtain ⟨ms, hms⟩ := ihN hchild hM
        exact ⟨ms, List.mem_cons_of_mem _ (List.mem_append_left _ hms)⟩
    · obtain ⟨ms, hms⟩ := ih hN hM
      exact ⟨ms, List.mem_append_right _ hms⟩
  | result _ ih => exact ih hN hM
  | noResult _ ih => exact ih hN hM

end Derives

/-! ## Derivations of what is written -/

/-- The ways to write a node. -/
def Node.written : Node → Language Lexeme
  | .expr e => e.written
  | .var d => d.written
  | .param p => p.written
  | .block b => b.written
  | .func f => f.written
  | .elif c b rest n => (Branches.elif c b rest n).written
  | .otherwise b n => (Branches.otherwise b n).written
  | .statement s => s.written

/-- All ways to write something can be divided among the items, such that each node has a way to write it. -/
def Divides (items : List Item) (w : Language Lexeme) : Prop :=
  ∀ ls ∈ w, ∃ parts, Derives items ls parts ∧ ∀ p ∈ parts, p.lexemes ∈ p.node.written

/-- All ways to write the node can be divided among its items. -/
def Node.Divided (N : Node) : Prop := Divides N.items N.written

section Divides

variable {items items' : List Item} {v w : Language Lexeme}

theorem divides_one : Divides [] 1 := by
  rintro ls rfl
  exact ⟨[], .nil, List.forall_mem_nil _⟩

theorem divides_on (t : Token) (n : Nat) : Divides [.token t] (t.on n) := by
  rintro ls rfl
  exact ⟨[], .token .nil, List.forall_mem_nil _⟩

theorem divides_word (t : Token) : Divides [.token t] t.word := by
  intro ls hls
  obtain ⟨n, rfl⟩ := mem_word.1 hls
  exact divides_on t n _ rfl

theorem Divides.mul (hv : Divides items v) (hw : Divides items' w) :
    Divides (items ++ items') (v * w) := by
  intro ls hls
  obtain ⟨as, has, bs, hbs, rfl⟩ := Language.mem_mul.1 hls
  obtain ⟨parts, hparts, hwritten⟩ := hv as has
  obtain ⟨parts', hparts', hwritten'⟩ := hw bs hbs
  exact ⟨parts ++ parts', hparts.append hparts', List.forall_mem_append.2 ⟨hwritten, hwritten'⟩⟩

theorem Divides.iSup {p : Prop} (h : Divides items w) : Divides items (⨆ _ : p, w) := by
  intro ls hls
  obtain ⟨-, hls⟩ := Language.mem_iSup.1 hls
  exact h ls hls

theorem Node.Divided.node {N : Node} (h : N.Divided) : Divides [.node N] N.written := by
  intro ls hls
  obtain ⟨parts, hparts, hwritten⟩ := h ls hls
  have hnode := Derives.node hparts .nil
  rw [List.append_nil, List.append_nil] at hnode
  exact ⟨_, hnode, List.forall_mem_cons.2 ⟨hls, hwritten⟩⟩

theorem divides_following {Ns : List Node} (h : ∀ N ∈ Ns, N.Divided) :
    Divides (followingItems Ns) (following (Ns.map Node.written)) := by
  induction Ns with
  | nil => exact divides_one
  | cons N Ns ih =>
    rw [List.forall_mem_cons] at h
    exact ((divides_word (.mark .comma)).mul h.1.node).mul (ih h.2)

theorem divides_separated {Ns : List Node} (h : ∀ N ∈ Ns, N.Divided) :
    Divides (separatedItems Ns) (separated (Ns.map Node.written)) := by
  cases Ns with
  | nil => exact divides_one
  | cons N Ns =>
    rw [List.forall_mem_cons] at h
    exact h.1.node.mul (divides_following h.2)

theorem divides_type (constant : Bool) (type : ValueType) :
    Divides (typeItems constant type) (type.written constant) := by
  cases constant with
  | false => exact divides_one.mul (divides_word _)
  | true => exact (divides_word (.keyword .constant_)).mul (divides_word _)

theorem divides_result (type : ValueType) {b : Block} (h : (Node.block b).Divided) :
    Divides [.result type b] (type.writtenResult * b.written) := by
  unfold ValueType.writtenResult
  rw [add_mul]
  rintro ls (hls | hls)
  · have hsaid := ((divides_word (.mark .arrow)).mul (divides_word (.typeName type))).mul h.node
    obtain ⟨parts, hparts, hwritten⟩ := hsaid ls hls
    exact ⟨parts, .result hparts, hwritten⟩
  · split_ifs at hls with hvoid
    · rw [one_mul] at hls
      obtain ⟨parts, hparts, hwritten⟩ := h.node ls hls
      rw [hvoid]
      exact ⟨parts, .noResult hparts, hwritten⟩
    · rw [zero_mul] at hls
      exact absurd hls (Language.notMem_zero ls)

end Divides

end Grammar

open Grammar

/-! ### Every tree -/

mutual

theorem Expr.divided : ∀ e : Expr, (Node.expr e).Divided
  | .literal v n => by
    rw [Node.Divided, Node.written, written]
    exact divides_on _ _
  | .name x n => by
    rw [Node.Divided, Node.written, written]
    exact divides_on _ _
  | .group e n => by
    rw [Node.Divided, Node.written, written]
    exact ((divides_on _ _).mul e.divided.node).mul (divides_word _)
  | .call f args n => by
    rw [Node.Divided, Node.written, written, Expr.writtenAll_eq_map]
    have hargs := divides_separated (Expr.dividedAll args)
    rw [List.map_map] at hargs
    exact (((divides_on _ _).mul (divides_word _)).mul hargs).mul (divides_word _)
  | .cast t e n => by
    rw [Node.Divided, Node.written, written]
    have htype := ((divides_on (.keyword .cast_) n).mul (divides_word (.operator (.comparison .less)))).mul
      (divides_word (.typeName t))
    have hopen := (htype.mul (divides_word (.operator (.comparison .greater)))).mul
      (divides_word (.mark .openParen))
    exact (hopen.mul e.divided.node).mul (divides_word _)
  | .unary op e n => by
    rw [Node.Divided, Node.written, written]
    exact (divides_on _ _).mul e.divided.node
  | .binary op l r n => by
    rw [Node.Divided, Node.written, written]
    exact ((l.divided.node.mul (divides_word _)).mul r.divided.node).iSup
  | .assign op x e n => by
    rw [Node.Divided, Node.written, written]
    exact ((divides_on _ _).mul (divides_word _)).mul e.divided.node

theorem Expr.dividedAll : ∀ es : List Expr, ∀ N ∈ es.map Node.expr, N.Divided
  | [], N, hN => by cases hN
  | e :: es, N, hN => by
    rcases List.mem_cons.1 hN with rfl | hN
    · exact e.divided
    · exact Expr.dividedAll es N hN

end

theorem VarDecl.divided (d : VarDecl) : (Node.var d).Divided := by
  rcases d with ⟨name, type, constant, initial, n⟩
  have hinitial : Divides (initial.elim [] fun e => [.token (.assign .plain), .node (.expr e)])
      (initial.elim 1 fun e => (Token.assign .plain).word * e.written) := by
    cases initial with
    | none => exact divides_one
    | some e => exact (divides_word _).mul e.divided.node
  have hname := (divides_on (.identifier name) n).mul (divides_word (.mark .colon))
  exact ((hname.mul (divides_type constant type)).mul hinitial).mul (divides_word _)

theorem Param.divided (p : Param) : (Node.param p).Divided :=
  ((divides_on _ _).mul (divides_word _)).mul (divides_type _ _)

theorem Param.dividedAll (ps : List Param) : ∀ N ∈ ps.map Node.param, N.Divided := by
  intro N hN
  obtain ⟨p, _, rfl⟩ := List.mem_map.1 hN
  exact p.divided

mutual

theorem Block.divided : ∀ b : Block, (Node.block b).Divided
  | ⟨statements, n⟩ => by
    rw [Node.Divided, Node.written, Block.written]
    exact ((divides_on _ _).mul (Statement.dividedAll statements)).mul (divides_word _)

theorem Branches.divided : ∀ bs : Branches, Divides (linkItems bs) bs.written
  | .done => by
    rw [Branches.written]
    exact divides_one
  | .elif c b rest n => by
    have hnode : (Node.elif c b rest n).Divided := by
      rw [Node.Divided, Node.written, Branches.written]
      exact (((divides_on _ _).mul c.divided.node).mul b.divided.node).mul rest.divided
    exact hnode.node
  | .otherwise b n => by
    have hnode : (Node.otherwise b n).Divided := by
      rw [Node.Divided, Node.written, Branches.written]
      exact (divides_on _ _).mul b.divided.node
    exact hnode.node

theorem Function.divided : ∀ f : Function, (Node.func f).Divided
  | ⟨name, result, params, body, n⟩ => by
    rw [Node.Divided, Node.written, Function.written, mul_assoc _ result.writtenResult]
    have hparams := divides_separated (Param.dividedAll params)
    rw [List.map_map] at hparams
    have hname := (((divides_on (.identifier name) n).mul (divides_word (.mark .colon))).mul
      (divides_word (.keyword .func_))).mul (divides_word (.mark .openParen))
    exact ((hname.mul hparams).mul (divides_word _)).mul (divides_result result body.divided)

theorem Statement.divided : ∀ s : Statement, (Node.statement s).Divided
  | .var d => by
    rw [Node.Divided, Node.written, Statement.written]
    exact d.divided.node
  | .func f => by
    rw [Node.Divided, Node.written, Statement.written]
    exact f.divided.node
  | .expr e n => by
    rw [Node.Divided, Node.written, Statement.written]
    exact (e.divided.node.mul (divides_word _)).iSup
  | .print e es n => by
    rw [Node.Divided, Node.written, Statement.written, Expr.writtenAll_eq_map]
    have hes := divides_following (Expr.dividedAll es)
    rw [List.map_map] at hes
    exact (((divides_on _ _).mul e.divided.node).mul hes).mul (divides_word _)
  | .block b => by
    rw [Node.Divided, Node.written, Statement.written]
    exact b.divided.node
  | .cond c b rest n => by
    rw [Node.Divided, Node.written, Statement.written]
    exact (((divides_on _ _).mul c.divided.node).mul b.divided.node).mul rest.divided
  | .loop c b n => by
    rw [Node.Divided, Node.written, Statement.written]
    exact ((divides_on _ _).mul c.divided.node).mul b.divided.node
  | .count d c s b n => by
    rw [Node.Divided, Node.written, Statement.written]
    have hhead := (((divides_on (.keyword .for_) n).mul d.divided.node).mul c.divided.node).mul
      (divides_word (.mark .semicolon))
    exact (hhead.mul s.divided.node).mul b.divided.node
  | .return_ none n => by
    rw [Node.Divided, Node.written, Statement.written]
    exact ((divides_on _ _).mul divides_one).mul (divides_word _)
  | .return_ (some e) n => by
    rw [Node.Divided, Node.written, Statement.written]
    exact ((divides_on _ _).mul e.divided.node).mul (divides_word _)
  | .exit k n => by
    rw [Node.Divided, Node.written, Statement.written]
    exact (divides_on _ _).mul (divides_word _)

theorem Statement.dividedAll : ∀ ss : List Statement,
    Divides (ss.map fun s => .node (.statement s)) (Statement.writtenAll ss)
  | [] => by
    rw [Statement.writtenAll]
    exact divides_one
  | s :: ss => by
    rw [Statement.writtenAll]
    exact s.divided.node.mul (Statement.dividedAll ss)

end

/-! ## Lines -/

namespace Grammar

/-- A node begins on its line. -/
theorem Node.startsOn_written (N : Node) : StartsOn N.line N.written := by
  cases N with
  | expr e => exact e.startsOn_written
  | var d => exact d.startsOn_written
  | param p => exact ((startsOn_on _ p.line).mul _).mul _
  | block b => exact b.startsOn_written
  | func f => exact f.startsOn_written
  | elif c b rest n =>
    rw [written, Branches.written]
    exact (((startsOn_on _ n).mul _).mul _).mul _
  | otherwise b n =>
    rw [written, Branches.written]
    exact (startsOn_on _ n).mul _
  | statement s => exact s.startsOn_written

/-- The parts of the nodes of a statement that was read from the tokens. -/
structure Parts (s : Statement) (ls : List Lexeme) (parts : List Part) : Prop where
  derives : Derives [.node (.statement s)] ls parts
  unique : ∀ parts', Derives [.node (.statement s)] ls parts' → parts' = parts
  complete : ∀ N : Node, N.Within (.statement s) → ∃ ms, ⟨N, ms⟩ ∈ parts
  stretch : ∀ p ∈ parts, ∃ before after, ls = before ++ p.lexemes ++ after

theorem exists_parts {s : Statement} {ls : List Lexeme} (h : ls ∈ s.written) :
    ∃ parts, Parts s ls parts ∧ ∀ p ∈ parts, ∃ t more, p.lexemes = ⟨t, p.node.line⟩ :: more := by
  obtain ⟨parts, hparts, hwritten⟩ := s.divided.node ls h
  have hcomplete (N : Node) (hN : N.Within (.statement s)) : ∃ ms, ⟨N, ms⟩ ∈ parts :=
    hparts.complete List.mem_cons_self hN
  refine ⟨parts, ⟨hparts, fun parts' h' => h'.unique hparts, hcomplete, hparts.stretch⟩, ?_⟩
  intro p hp
  exact p.node.startsOn_written _ (hwritten p hp)

/-- An error that names a token is on its line. -/
theorem line_of_names {e : SyntaxError} {endLine : Nat} {ts : List Lexeme} (h : e.Names endLine ts)
    (hend : ∀ x, e.problem ≠ .endOfInput x) : ∃ l more, ts = l :: more ∧ e.line = l.line := by
  cases h with
  | unexpected x l ts => exact ⟨l, ts, rfl, rfl⟩
  | endOfInput x => exact absurd rfl (hend x)
  | invalidTarget op n ts => exact ⟨_, ts, rfl, rfl⟩
  | danglingElif n ts => exact ⟨_, ts, rfl, rfl⟩
  | danglingElse n ts => exact ⟨_, ts, rfl, rfl⟩

/-- **Nodes begin on their lines.** Reading a sequence of tokens cuts it into segments. The tokens of a
statement that is kept can be divided among its nodes, at all depths, in one way and no other, and there every
node carries the line of the first of its tokens. Where the statement parser has stopped with an error, the
error carries the line of the next token, unless it says that there is none. -/
theorem nodes_begin_on_their_lines (ts : List Lexeme) :
    ∃ segments, Layout ts segments ∧
      (∀ s ls, .kept s ls ∈ segments →
        ∃ parts, Parts s ls parts ∧ ∀ p ∈ parts, ∃ t more, p.lexemes = ⟨t, p.node.line⟩ :: more) ∧
      ∀ before e consumed dropped after, segments = before ++ .failed e consumed dropped :: after →
        (∀ x, e.problem ≠ .endOfInput x) →
        ∃ l more, dropped ++ after.flatMap Segment.lexemes = l :: more ∧ e.line = l.line := by
  obtain ⟨segments, hlayout⟩ := exists_layout ts
  refine ⟨segments, hlayout, fun s ls hmem => ?_, ?_⟩
  · obtain ⟨before, after, hsplit⟩ := List.append_of_mem hmem
    obtain ⟨-, -, hwritten, -⟩ := (hlayout.account.2 before _ after hsplit).2
    exact exists_parts hwritten
  · intro before e consumed dropped after hsplit hend
    obtain ⟨-, hnames, -⟩ := (hlayout.account.2 before _ after hsplit).2
    exact line_of_names hnames hend

end Grammar

end Scriptling
