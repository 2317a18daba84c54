import Scriptling.Proofs.Syntax.Shape
import Scriptling.SyntaxError

/-!
# Scriptling.Proofs.Syntax.Lines -- trees on other lines

The same tree with other line numbers: `reline f` takes a node on line `n` to line `f n`. Two trees that differ
in their lines only are the same with all nodes on one line (`Statement.SameButLines`).
-/

set_option autoImplicit false

namespace Scriptling

variable (f : Nat → Nat)

/-- The token on another line. -/
def Lexeme.reline (l : Lexeme) : Lexeme := ⟨l.token, f l.line⟩

/-- The error on another line, if it has one: at the end of the input there is no token to have a line. -/
def SyntaxError.reline (e : SyntaxError) : SyntaxError :=
  match e.problem with
  | .endOfInput _ => e
  | _ => ⟨e.problem, f e.line⟩

/-- The error on another line, when it has been given one. -/
def SyntaxError.mapLine (e : SyntaxError) : SyntaxError := ⟨e.problem, f e.line⟩

mutual

/-- The expression on other lines. -/
def Expr.reline : Expr → Expr
  | .literal v n => .literal v (f n)
  | .name x n => .name x (f n)
  | .group e n => .group e.reline (f n)
  | .call g args n => .call g (Expr.relineAll args) (f n)
  | .cast t e n => .cast t e.reline (f n)
  | .unary op e n => .unary op e.reline (f n)
  | .binary op l r n => .binary op l.reline r.reline (f n)
  | .assign op x e n => .assign op x e.reline (f n)

/-- Several expressions on other lines. -/
def Expr.relineAll : List Expr → List Expr
  | [] => []
  | e :: es => e.reline :: Expr.relineAll es

end

theorem Expr.relineAll_eq_map (es : List Expr) : Expr.relineAll f es = es.map (Expr.reline f) := by
  induction es with
  | nil => rfl
  | cons e es ih => rw [relineAll, ih, List.map_cons]

/-- The line of a node is moved with the node. -/
theorem Expr.line_reline (e : Expr) : (e.reline f).line = f e.line := by
  cases e <;> rfl

/-- The variable on other lines. -/
def VarDecl.reline (d : VarDecl) : VarDecl :=
  { d with initial := d.initial.map (Expr.reline f), line := f d.line }

/-- The parameter on another line. -/
def Param.reline (p : Param) : Param := { p with line := f p.line }

mutual

/-- The block on other lines. -/
def Block.reline : Block → Block
  | ⟨statements, n⟩ => ⟨Statement.relineAll statements, f n⟩

/-- The branches on other lines. -/
def Branches.reline : Branches → Branches
  | .done => .done
  | .elif c b rest n => .elif (c.reline f) b.reline rest.reline (f n)
  | .otherwise b n => .otherwise b.reline (f n)

/-- The function on other lines. -/
def Function.reline : Function → Function
  | ⟨name, result, params, body, n⟩ =>
    ⟨name, result, params.map (Param.reline f), body.reline, f n⟩

/-- The statement on other lines. -/
def Statement.reline : Statement → Statement
  | .var d => .var (d.reline f)
  | .func g => .func g.reline
  | .expr e n => .expr (e.reline f) (f n)
  | .print e es n => .print (e.reline f) (es.map (Expr.reline f)) (f n)
  | .block b => .block b.reline
  | .cond c b rest n => .cond (c.reline f) b.reline rest.reline (f n)
  | .loop c b n => .loop (c.reline f) b.reline (f n)
  | .count d c s b n => .count (d.reline f) (c.reline f) (s.reline f) b.reline (f n)
  | .return_ v n => .return_ (v.map (Expr.reline f)) (f n)
  | .exit k n => .exit k (f n)

/-- Statements on other lines. -/
def Statement.relineAll : List Statement → List Statement
  | [] => []
  | s :: ss => s.reline :: Statement.relineAll ss

end

theorem Statement.relineAll_eq_map (ss : List Statement) :
    Statement.relineAll f ss = ss.map (Statement.reline f) := by
  induction ss with
  | nil => rfl
  | cons s ss ih => rw [relineAll, ih, List.map_cons]

/-- The statements differ in nothing but their lines. -/
def Statement.SameButLines (ss ss' : List Statement) : Prop :=
  Statement.relineAll (fun _ => 0) ss = Statement.relineAll (fun _ => 0) ss'

/-! ## Errors -/

/-- An error is on another line when it is located on one, if the last line is another one too. -/
theorem SyntaxError.locate_reline (e : SyntaxError) (lastLine : Nat) :
    (e.reline f).locate (f lastLine) = (e.locate lastLine).mapLine f := by
  rcases e with ⟨problem, line⟩
  cases problem <;> rfl

/-! ## The same lines -/

theorem Lexeme.reline_id : Lexeme.reline id = id := rfl

/-- An error whose line is left as it is is the same. -/
theorem SyntaxError.reline_id (e : SyntaxError) : e.reline id = e := by
  rw [reline]
  split <;> rfl

mutual

theorem Expr.reline_id : ∀ e : Expr, e.reline id = e
  | .literal _ _ => by rw [reline, id]
  | .name _ _ => by rw [reline, id]
  | .group e _ => by rw [reline, e.reline_id, id]
  | .call _ args _ => by rw [reline, Expr.relineAll_id args, id]
  | .cast _ e _ => by rw [reline, e.reline_id, id]
  | .unary _ e _ => by rw [reline, e.reline_id, id]
  | .binary _ l r _ => by rw [reline, l.reline_id, r.reline_id, id]
  | .assign _ _ e _ => by rw [reline, e.reline_id, id]

theorem Expr.relineAll_id : ∀ es : List Expr, Expr.relineAll id es = es
  | [] => by rw [relineAll]
  | e :: es => by rw [relineAll, e.reline_id, Expr.relineAll_id es]

end

theorem Expr.map_reline_id (es : List Expr) : es.map (Expr.reline id) = es := by
  rw [← relineAll_eq_map, relineAll_id]

theorem VarDecl.reline_id (d : VarDecl) : d.reline id = d := by
  rcases d with ⟨name, type, constant, initial, line⟩
  cases initial with
  | none => rfl
  | some e => simp [VarDecl.reline, e.reline_id]

theorem Param.map_reline_id (ps : List Param) : ps.map (Param.reline id) = ps := List.map_id ps

mutual

theorem Block.reline_id : ∀ b : Block, b.reline id = b
  | ⟨statements, _⟩ => by rw [Block.reline, Statement.relineAll_id statements, id]

theorem Branches.reline_id : ∀ bs : Branches, bs.reline id = bs
  | .done => by rw [Branches.reline]
  | .elif c b rest _ => by
    rw [Branches.reline, c.reline_id, b.reline_id, rest.reline_id, id]
  | .otherwise b _ => by rw [Branches.reline, b.reline_id, id]

theorem Function.reline_id : ∀ g : Function, g.reline id = g
  | ⟨_, _, params, body, _⟩ => by
    rw [Function.reline, Param.map_reline_id, body.reline_id, id]

/-- A statement whose lines are left as they are is the same. -/
theorem Statement.reline_id : ∀ s : Statement, s.reline id = s
  | .var d => by rw [Statement.reline, d.reline_id]
  | .func g => by rw [Statement.reline, g.reline_id]
  | .expr e _ => by rw [Statement.reline, e.reline_id, id]
  | .print e es _ => by rw [Statement.reline, e.reline_id, Expr.map_reline_id, id]
  | .block b => by rw [Statement.reline, b.reline_id]
  | .cond c b rest _ => by rw [Statement.reline, c.reline_id, b.reline_id, rest.reline_id, id]
  | .loop c b _ => by rw [Statement.reline, c.reline_id, b.reline_id, id]
  | .count d c s b _ => by
    rw [Statement.reline, d.reline_id, c.reline_id, s.reline_id, b.reline_id, id]
  | .return_ none _ => by rw [Statement.reline, Option.map_none, id]
  | .return_ (some e) _ => by rw [Statement.reline, Option.map_some, e.reline_id, id]
  | .exit _ _ => by rw [Statement.reline, id]

theorem Statement.relineAll_id : ∀ ss : List Statement, Statement.relineAll id ss = ss
  | [] => by rw [Statement.relineAll]
  | s :: ss => by rw [Statement.relineAll, s.reline_id, Statement.relineAll_id ss]

end

/-! ## Shape -/

/-- Lines do not matter to how loosely an expression binds. -/
theorem Expr.level_reline (e : Expr) : (e.reline f).level = e.level := by
  cases e <;> rfl

mutual

/-- Lines do not matter to the shape of a tree. -/
theorem Expr.shaped_reline : ∀ e : Expr, (e.reline f).Shaped ↔ e.Shaped
  | .literal _ _ => by rw [reline, Shaped, Shaped]
  | .name _ _ => by rw [reline, Shaped, Shaped]
  | .group e _ => by rw [reline, Shaped, Shaped, e.shaped_reline]
  | .call _ args _ => by rw [reline, Shaped, Shaped, Expr.shapedAll_reline args]
  | .cast _ e _ => by rw [reline, Shaped, Shaped, e.shaped_reline]
  | .unary _ e _ => by rw [reline, Shaped, Shaped, e.shaped_reline, e.level_reline]
  | .binary _ l r _ => by
    rw [reline, Shaped, Shaped, l.shaped_reline, r.shaped_reline, l.level_reline, r.level_reline]
  | .assign _ _ e _ => by rw [reline, Shaped, Shaped, e.shaped_reline]

theorem Expr.shapedAll_reline : ∀ es : List Expr,
    Expr.ShapedAll (Expr.relineAll f es) ↔ Expr.ShapedAll es
  | [] => by rw [relineAll]
  | e :: es => by
    rw [relineAll, ShapedAll, ShapedAll, e.shaped_reline, Expr.shapedAll_reline es]

end

/-- Lines do not matter to the shape of a variable declaration. -/
theorem VarDecl.shaped_reline (d : VarDecl) : (d.reline f).Shaped ↔ d.Shaped := by
  rcases d with ⟨name, type, constant, initial, line⟩
  cases initial with
  | none => simp [VarDecl.reline, VarDecl.Shaped]
  | some e => simp [VarDecl.reline, VarDecl.Shaped, e.shaped_reline]

mutual

theorem Block.shaped_reline : ∀ b : Block, (b.reline f).Shaped ↔ b.Shaped
  | ⟨statements, _⟩ => by
    rw [Block.reline, Block.Shaped, Block.Shaped, Statement.shapedAll_reline statements]

theorem Branches.shaped_reline : ∀ bs : Branches, (bs.reline f).Shaped ↔ bs.Shaped
  | .done => by rw [Branches.reline]
  | .elif c b rest _ => by
    rw [Branches.reline, Branches.Shaped, Branches.Shaped, c.shaped_reline, b.shaped_reline,
      rest.shaped_reline]
  | .otherwise b _ => by
    rw [Branches.reline, Branches.Shaped, Branches.Shaped, b.shaped_reline]

theorem Function.shaped_reline : ∀ g : Function, (g.reline f).Shaped ↔ g.Shaped
  | ⟨_, _, params, body, _⟩ => by
    rw [Function.reline, Function.Shaped, Function.Shaped, body.shaped_reline, List.forall_mem_map]
    rfl

theorem Statement.shaped_reline : ∀ s : Statement, (s.reline f).Shaped ↔ s.Shaped
  | .var d => by rw [Statement.reline, Statement.Shaped, Statement.Shaped, d.shaped_reline]
  | .func g => by rw [Statement.reline, Statement.Shaped, Statement.Shaped, g.shaped_reline]
  | .expr e _ => by rw [Statement.reline, Statement.Shaped, Statement.Shaped, e.shaped_reline]
  | .print e es _ => by
    rw [Statement.reline, Statement.Shaped, Statement.Shaped, e.shaped_reline, List.forall_mem_map]
    simp only [Expr.shaped_reline]
  | .block b => by rw [Statement.reline, Statement.Shaped, Statement.Shaped, b.shaped_reline]
  | .cond c b rest _ => by
    rw [Statement.reline, Statement.Shaped, Statement.Shaped, c.shaped_reline, b.shaped_reline,
      rest.shaped_reline]
  | .loop c b _ => by
    rw [Statement.reline, Statement.Shaped, Statement.Shaped, c.shaped_reline, b.shaped_reline]
  | .count d c s b _ => by
    rw [Statement.reline, Statement.Shaped, Statement.Shaped, d.shaped_reline, c.shaped_reline,
      s.shaped_reline, b.shaped_reline]
  | .return_ v _ => by
    rw [Statement.reline, Statement.Shaped, Statement.Shaped]
    simp [Expr.shaped_reline]
  | .exit _ _ => by rw [Statement.reline, Statement.Shaped, Statement.Shaped]

theorem Statement.shapedAll_reline : ∀ ss : List Statement,
    Statement.ShapedAll (Statement.relineAll f ss) ↔ Statement.ShapedAll ss
  | [] => by rw [Statement.relineAll]
  | s :: ss => by
    rw [Statement.relineAll, Statement.ShapedAll, Statement.ShapedAll, s.shaped_reline,
      Statement.shapedAll_reline ss]

end

end Scriptling
