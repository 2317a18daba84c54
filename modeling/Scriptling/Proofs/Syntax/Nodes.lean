import Scriptling.Proofs.Syntax.Lines

/-!
# Scriptling.Proofs.Syntax.Nodes -- the lines that occur in a tree

Every node of a tree is on a line. `Expr.lines`, `Statement.lines` and `Program.lines` list the lines of all
nodes, those in the bodies of functions included. A tree that is put on other lines depends on nothing but what
becomes of these (`Statement.reline_congr`), and doing so twice is doing it once (`Statement.reline_reline`).
-/

set_option autoImplicit false

namespace Scriptling

/-! ## The lines of nodes -/

mutual

/-- The lines of the nodes of an expression. -/
def Expr.lines : Expr → List Nat
  | .literal _ n => [n]
  | .name _ n => [n]
  | .group e n => n :: e.lines
  | .call _ args n => n :: Expr.linesAll args
  | .cast _ e n => n :: e.lines
  | .unary _ e n => n :: e.lines
  | .binary _ l r n => n :: (l.lines ++ r.lines)
  | .assign _ _ e n => n :: e.lines

/-- The lines of the nodes of several expressions. -/
def Expr.linesAll : List Expr → List Nat
  | [] => []
  | e :: es => e.lines ++ Expr.linesAll es

end

/-- The line of a variable and those of its initial value. -/
def VarDecl.lines (d : VarDecl) : List Nat := d.line :: Expr.linesAll d.initial.toList

mutual

/-- The lines of the nodes of a block. -/
def Block.lines : Block → List Nat
  | ⟨statements, n⟩ => n :: Statement.linesAll statements

/-- The lines of the nodes of the branches of a conditional. -/
def Branches.lines : Branches → List Nat
  | .done => []
  | .elif c b rest n => n :: (c.lines ++ (b.lines ++ rest.lines))
  | .otherwise b n => n :: b.lines

/-- The lines of the nodes of a function, and so of its parameters and of its body. -/
def Function.lines : Function → List Nat
  | ⟨_, _, params, body, n⟩ => n :: (params.map Param.line ++ body.lines)

/-- The lines of the nodes of a statement. -/
def Statement.lines : Statement → List Nat
  | .var d => d.lines
  | .func f => f.lines
  | .expr e n => n :: e.lines
  | .print e es n => n :: (e.lines ++ Expr.linesAll es)
  | .block b => b.lines
  | .cond c b rest n => n :: (c.lines ++ (b.lines ++ rest.lines))
  | .loop c b n => n :: (c.lines ++ b.lines)
  | .count d c s b n => n :: (d.lines ++ (c.lines ++ (s.lines ++ b.lines)))
  | .return_ v n => n :: Expr.linesAll v.toList
  | .exit _ n => [n]

/-- The lines of the nodes of several statements. -/
def Statement.linesAll : List Statement → List Nat
  | [] => []
  | s :: ss => s.lines ++ Statement.linesAll ss

end

/-- The lines of the nodes of a program. -/
def Program.lines (p : Program) : List Nat := Statement.linesAll p.statements

/-! ## Lines that agree -/

section Agreement

variable {f g : Nat → Nat}

mutual

/-- An expression is put on other lines alike by what agrees on its lines. -/
theorem Expr.reline_congr : ∀ e : Expr, (∀ n ∈ e.lines, f n = g n) → e.reline f = e.reline g
  | .literal _ n, h => by rw [reline, reline, h n List.mem_cons_self]
  | .name _ n, h => by rw [reline, reline, h n List.mem_cons_self]
  | .group e _, h => by
    simp only [lines, List.forall_mem_cons] at h
    rw [reline, reline, h.1, e.reline_congr h.2]
  | .call _ args _, h => by
    simp only [lines, List.forall_mem_cons] at h
    rw [reline, reline, h.1, Expr.relineAll_congr args h.2]
  | .cast _ e _, h => by
    simp only [lines, List.forall_mem_cons] at h
    rw [reline, reline, h.1, e.reline_congr h.2]
  | .unary _ e _, h => by
    simp only [lines, List.forall_mem_cons] at h
    rw [reline, reline, h.1, e.reline_congr h.2]
  | .binary _ l r _, h => by
    simp only [lines, List.forall_mem_cons, List.forall_mem_append] at h
    rw [reline, reline, h.1, l.reline_congr h.2.1, r.reline_congr h.2.2]
  | .assign _ _ e _, h => by
    simp only [lines, List.forall_mem_cons] at h
    rw [reline, reline, h.1, e.reline_congr h.2]

theorem Expr.relineAll_congr : ∀ es : List Expr, (∀ n ∈ Expr.linesAll es, f n = g n) →
    Expr.relineAll f es = Expr.relineAll g es
  | [], _ => rfl
  | e :: es, h => by
    rw [linesAll, List.forall_mem_append] at h
    rw [relineAll, relineAll, e.reline_congr h.1, Expr.relineAll_congr es h.2]

end

theorem Expr.map_reline_congr {es : List Expr} (h : ∀ n ∈ Expr.linesAll es, f n = g n) :
    es.map (Expr.reline f) = es.map (Expr.reline g) := by
  rw [← relineAll_eq_map, ← relineAll_eq_map, relineAll_congr es h]

theorem Expr.optionMap_reline_congr {o : Option Expr} (h : ∀ n ∈ Expr.linesAll o.toList, f n = g n) :
    o.map (Expr.reline f) = o.map (Expr.reline g) := by
  cases o with
  | none => rfl
  | some e =>
    rw [Option.toList_some, linesAll, List.forall_mem_append] at h
    rw [Option.map_some, Option.map_some, e.reline_congr h.1]

theorem VarDecl.reline_congr {d : VarDecl} (h : ∀ n ∈ d.lines, f n = g n) :
    d.reline f = d.reline g := by
  rw [lines, List.forall_mem_cons] at h
  rw [reline, reline, h.1, Expr.optionMap_reline_congr h.2]

theorem Param.map_reline_congr {ps : List Param} (h : ∀ n ∈ ps.map Param.line, f n = g n) :
    ps.map (Param.reline f) = ps.map (Param.reline g) := by
  rw [List.forall_mem_map] at h
  refine List.map_inj_left.2 fun p hp => ?_
  rw [Param.reline, Param.reline, h p hp]

mutual

theorem Block.reline_congr : ∀ b : Block, (∀ n ∈ b.lines, f n = g n) → b.reline f = b.reline g
  | ⟨statements, _⟩, h => by
    rw [Block.lines, List.forall_mem_cons] at h
    rw [Block.reline, Block.reline, h.1, Statement.relineAll_congr statements h.2]

theorem Branches.reline_congr : ∀ bs : Branches, (∀ n ∈ bs.lines, f n = g n) →
    bs.reline f = bs.reline g
  | .done, _ => by rw [Branches.reline, Branches.reline]
  | .elif c b rest _, h => by
    simp only [Branches.lines, List.forall_mem_cons, List.forall_mem_append] at h
    rw [Branches.reline, Branches.reline, h.1, c.reline_congr h.2.1, b.reline_congr h.2.2.1,
      rest.reline_congr h.2.2.2]
  | .otherwise b _, h => by
    rw [Branches.lines, List.forall_mem_cons] at h
    rw [Branches.reline, Branches.reline, h.1, b.reline_congr h.2]

/-- The lines of a function are its own, those of its parameters and those in its body. -/
theorem Function.reline_congr : ∀ k : Function, (∀ n ∈ k.lines, f n = g n) → k.reline f = k.reline g
  | ⟨_, _, params, body, _⟩, h => by
    rw [Function.lines, List.forall_mem_cons, List.forall_mem_append] at h
    rw [Function.reline, Function.reline, h.1, Param.map_reline_congr h.2.1, body.reline_congr h.2.2]

/-- A statement is put on other lines alike by what agrees on its lines. -/
theorem Statement.reline_congr : ∀ s : Statement, (∀ n ∈ s.lines, f n = g n) →
    s.reline f = s.reline g
  | .var d, h => by
    rw [Statement.lines] at h
    rw [Statement.reline, Statement.reline, VarDecl.reline_congr h]
  | .func k, h => by
    rw [Statement.lines] at h
    rw [Statement.reline, Statement.reline, k.reline_congr h]
  | .expr e _, h => by
    rw [Statement.lines, List.forall_mem_cons] at h
    rw [Statement.reline, Statement.reline, h.1, e.reline_congr h.2]
  | .print e es _, h => by
    rw [Statement.lines, List.forall_mem_cons, List.forall_mem_append] at h
    rw [Statement.reline, Statement.reline, h.1, e.reline_congr h.2.1, Expr.map_reline_congr h.2.2]
  | .block b, h => by
    rw [Statement.lines] at h
    rw [Statement.reline, Statement.reline, b.reline_congr h]
  | .cond c b rest _, h => by
    simp only [Statement.lines, List.forall_mem_cons, List.forall_mem_append] at h
    rw [Statement.reline, Statement.reline, h.1, c.reline_congr h.2.1, b.reline_congr h.2.2.1,
      rest.reline_congr h.2.2.2]
  | .loop c b _, h => by
    rw [Statement.lines, List.forall_mem_cons, List.forall_mem_append] at h
    rw [Statement.reline, Statement.reline, h.1, c.reline_congr h.2.1, b.reline_congr h.2.2]
  | .count d c s b _, h => by
    simp only [Statement.lines, List.forall_mem_cons, List.forall_mem_append] at h
    obtain ⟨hline, hd, hc, hs, hb⟩ := h
    rw [Statement.reline, Statement.reline, hline, VarDecl.reline_congr hd, c.reline_congr hc, s.reline_congr hs,
      b.reline_congr hb]
  | .return_ _ _, h => by
    rw [Statement.lines, List.forall_mem_cons] at h
    rw [Statement.reline, Statement.reline, h.1, Expr.optionMap_reline_congr h.2]
  | .exit _ n, h => by
    rw [Statement.lines] at h
    rw [Statement.reline, Statement.reline, h n List.mem_cons_self]

theorem Statement.relineAll_congr : ∀ ss : List Statement, (∀ n ∈ Statement.linesAll ss, f n = g n) →
    Statement.relineAll f ss = Statement.relineAll g ss
  | [], _ => by rw [Statement.relineAll, Statement.relineAll]
  | s :: ss, h => by
    rw [Statement.linesAll, List.forall_mem_append] at h
    rw [Statement.relineAll, Statement.relineAll, s.reline_congr h.1, Statement.relineAll_congr ss h.2]

end

end Agreement

/-! ## Other lines twice -/

section Twice

variable (f g : Nat → Nat)

mutual

/-- Putting an expression on other lines twice is doing it once. -/
theorem Expr.reline_reline : ∀ e : Expr, (e.reline f).reline g = e.reline (g ∘ f)
  | .literal _ _ => by simp only [reline, Function.comp_apply]
  | .name _ _ => by simp only [reline, Function.comp_apply]
  | .group e _ => by simp only [reline, e.reline_reline, Function.comp_apply]
  | .call _ args _ => by simp only [reline, Expr.relineAll_relineAll args, Function.comp_apply]
  | .cast _ e _ => by simp only [reline, e.reline_reline, Function.comp_apply]
  | .unary _ e _ => by simp only [reline, e.reline_reline, Function.comp_apply]
  | .binary _ l r _ => by simp only [reline, l.reline_reline, r.reline_reline, Function.comp_apply]
  | .assign _ _ e _ => by simp only [reline, e.reline_reline, Function.comp_apply]

theorem Expr.relineAll_relineAll : ∀ es : List Expr,
    Expr.relineAll g (Expr.relineAll f es) = Expr.relineAll (g ∘ f) es
  | [] => rfl
  | e :: es => by rw [relineAll, relineAll, relineAll, e.reline_reline, Expr.relineAll_relineAll es]

end

theorem Expr.reline_comp_reline : Expr.reline g ∘ Expr.reline f = Expr.reline (g ∘ f) :=
  funext (Expr.reline_reline f g)

theorem Param.reline_comp_reline : Param.reline g ∘ Param.reline f = Param.reline (g ∘ f) := rfl

theorem VarDecl.reline_reline (d : VarDecl) : (d.reline f).reline g = d.reline (g ∘ f) := by
  rcases d with ⟨name, type, constant, _ | e, line⟩
  · rfl
  · simp [VarDecl.reline, e.reline_reline]

mutual

theorem Block.reline_reline : ∀ b : Block, (b.reline f).reline g = b.reline (g ∘ f)
  | ⟨statements, _⟩ => by
    simp only [Block.reline, Statement.relineAll_relineAll statements, Function.comp_apply]

theorem Branches.reline_reline : ∀ bs : Branches, (bs.reline f).reline g = bs.reline (g ∘ f)
  | .done => by simp only [Branches.reline]
  | .elif c b rest _ => by
    simp only [Branches.reline, c.reline_reline, b.reline_reline, rest.reline_reline, Function.comp_apply]
  | .otherwise b _ => by simp only [Branches.reline, b.reline_reline, Function.comp_apply]

theorem Function.reline_reline : ∀ k : Function, (k.reline f).reline g = k.reline (g ∘ f)
  | ⟨_, _, params, body, _⟩ => by
    simp only [Function.reline, List.map_map, body.reline_reline, Param.reline_comp_reline,
      Function.comp_apply]

/-- Putting a statement on other lines twice is doing it once. -/
theorem Statement.reline_reline : ∀ s : Statement, (s.reline f).reline g = s.reline (g ∘ f)
  | .var d => by simp only [Statement.reline, d.reline_reline]
  | .func k => by simp only [Statement.reline, k.reline_reline]
  | .expr e _ => by simp only [Statement.reline, e.reline_reline, Function.comp_apply]
  | .print e es _ => by
    simp only [Statement.reline, e.reline_reline, List.map_map, Expr.reline_comp_reline,
      Function.comp_apply]
  | .block b => by simp only [Statement.reline, b.reline_reline]
  | .cond c b rest _ => by
    simp only [Statement.reline, c.reline_reline, b.reline_reline, rest.reline_reline, Function.comp_apply]
  | .loop c b _ => by simp only [Statement.reline, c.reline_reline, b.reline_reline, Function.comp_apply]
  | .count d c s b _ => by
    simp only [Statement.reline, d.reline_reline, c.reline_reline, s.reline_reline, b.reline_reline,
      Function.comp_apply]
  | .return_ v _ => by
    simp only [Statement.reline, Option.map_map, Expr.reline_comp_reline,
      Function.comp_apply]
  | .exit _ _ => by simp only [Statement.reline, Function.comp_apply]

theorem Statement.relineAll_relineAll : ∀ ss : List Statement,
    Statement.relineAll g (Statement.relineAll f ss) = Statement.relineAll (g ∘ f) ss
  | [] => by simp only [Statement.relineAll]
  | s :: ss => by
    simp only [Statement.relineAll, s.reline_reline, Statement.relineAll_relineAll ss]

end

end Twice

end Scriptling
