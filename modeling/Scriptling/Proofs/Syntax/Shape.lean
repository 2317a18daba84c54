import Scriptling.Proofs.Syntax.DeclaredTypes

/-!
# Scriptling.Proofs.Syntax.Shape -- trees that need no further parentheses

Not every tree can be read back from its own tokens: the operands of an operator have to bind tightly
enough, or they would be taken apart again. A tree of which this holds throughout is `Shaped`. It also
declares no variable of type `void`, for which the grammar has no place. That an `if` is followed by any
number of `elif`s and by one `else` at most needs no saying: there are no other `Branches`.
-/

set_option autoImplicit false

namespace Scriptling

/-- How loosely an expression binds: not at all without operators outside of parentheses other than
prefix operators, else as its outermost operator, and most loosely if it is an assignment. -/
def Expr.level : Expr → Nat
  | .literal _ _ => 0
  | .name _ _ => 0
  | .group _ _ => 0
  | .call _ _ _ => 0
  | .cast _ _ _ => 0
  | .unary _ _ _ => 0
  | .binary op _ _ _ => op.tier
  | .assign _ _ _ _ => BinaryOperator.loosest + 1

mutual

/-- The left operand of each operator binds as tightly as the operator or more, the right one more
tightly, and the operand of a prefix operator has no operators but further prefixes. So an assignment is
a whole expression, in parentheses or without, or the value of another assignment. -/
def Expr.Shaped : Expr → Prop
  | .literal _ _ => True
  | .name _ _ => True
  | .group e _ => e.Shaped
  | .call _ args _ => Expr.ShapedAll args
  | .cast t e _ => t ≠ .void ∧ e.Shaped
  | .unary _ e _ => e.Shaped ∧ e.level = 0
  | .binary op l r _ => l.Shaped ∧ r.Shaped ∧ l.level ≤ op.tier ∧ r.level < op.tier
  | .assign _ _ e _ => e.Shaped

/-- All of several expressions are shaped. -/
def Expr.ShapedAll : List Expr → Prop
  | [] => True
  | e :: es => e.Shaped ∧ Expr.ShapedAll es

end

theorem Expr.shapedAll_iff {es : List Expr} : Expr.ShapedAll es ↔ ∀ e ∈ es, e.Shaped := by
  induction es with
  | nil => simp [ShapedAll]
  | cons e es ih => simp [ShapedAll, ih]

/-- The variable is of a type with values, and its initial value is shaped. -/
def VarDecl.Shaped (d : VarDecl) : Prop := d.type ≠ .void ∧ ∀ e ∈ d.initial, e.Shaped

mutual

/-- All statements of a block are shaped. -/
def Block.Shaped : Block → Prop
  | ⟨statements, _⟩ => Statement.ShapedAll statements

/-- All branches are shaped. -/
def Branches.Shaped : Branches → Prop
  | .done => True
  | .elif c b rest _ => c.Shaped ∧ b.Shaped ∧ rest.Shaped
  | .otherwise b _ => b.Shaped

/-- All parameters are of types with values, and the body is shaped. -/
def Function.Shaped : Function → Prop
  | ⟨_, _, params, body, _⟩ => (∀ p ∈ params, p.type ≠ .void) ∧ body.Shaped

/-- All expressions of a statement are shaped, at any depth. -/
def Statement.Shaped : Statement → Prop
  | .var d => d.Shaped
  | .func f => f.Shaped
  | .expr e _ => e.Shaped
  | .print e es _ => e.Shaped ∧ ∀ e ∈ es, e.Shaped
  | .block b => b.Shaped
  | .cond c b rest _ => c.Shaped ∧ b.Shaped ∧ rest.Shaped
  | .loop c b _ => c.Shaped ∧ b.Shaped
  | .count d c s b _ => d.Shaped ∧ c.Shaped ∧ s.Shaped ∧ b.Shaped
  | .return_ v _ => ∀ e ∈ v, e.Shaped
  | .exit _ _ => True

/-- All of several statements are shaped. -/
def Statement.ShapedAll : List Statement → Prop
  | [] => True
  | s :: ss => s.Shaped ∧ Statement.ShapedAll ss

end

theorem Statement.shapedAll_iff {ss : List Statement} :
    Statement.ShapedAll ss ↔ ∀ s ∈ ss, s.Shaped := by
  induction ss with
  | nil => simp [ShapedAll]
  | cons s ss ih => simp [ShapedAll, ih]

/-! ## Declared types -/

mutual

theorem Block.declaredTypes_ne_void :
    ∀ b : Block, b.Shaped → ∀ t ∈ b.declaredTypes, t ≠ .void
  | ⟨statements, _⟩, h => by
    rw [Block.Shaped] at h
    rw [Block.declaredTypes]
    exact Statement.declaredTypesAll_ne_void statements h

theorem Branches.declaredTypes_ne_void :
    ∀ bs : Branches, bs.Shaped → ∀ t ∈ bs.declaredTypes, t ≠ .void
  | .done, _ => by
    rw [Branches.declaredTypes]
    exact List.forall_mem_nil _
  | .elif _ b rest _, h => by
    rw [Branches.Shaped] at h
    rw [Branches.declaredTypes, List.forall_mem_append]
    exact ⟨b.declaredTypes_ne_void h.2.1, rest.declaredTypes_ne_void h.2.2⟩
  | .otherwise b _, h => by
    rw [Branches.Shaped] at h
    rw [Branches.declaredTypes]
    exact b.declaredTypes_ne_void h

/-- A shaped function has no parameter of type `void`, and declares no variable of it. -/
theorem Function.declaredTypes_ne_void :
    ∀ f : Function, f.Shaped → ∀ t ∈ f.declaredTypes, t ≠ .void
  | ⟨_, _, params, body, _⟩, h => by
    rw [Function.Shaped] at h
    rw [Function.declaredTypes, List.forall_mem_append, List.forall_mem_map]
    exact ⟨h.1, body.declaredTypes_ne_void h.2⟩

/-- A shaped statement declares no variable of type `void`, at any depth. -/
theorem Statement.declaredTypes_ne_void :
    ∀ s : Statement, s.Shaped → ∀ t ∈ s.declaredTypes, t ≠ .void
  | .var d, h => by
    rw [Statement.Shaped, VarDecl.Shaped] at h
    rw [Statement.declaredTypes, List.forall_mem_singleton]
    exact h.1
  | .func f, h => by
    rw [Statement.Shaped] at h
    rw [Statement.declaredTypes]
    exact f.declaredTypes_ne_void h
  | .expr _ _, _ => by
    rw [Statement.declaredTypes]
    exact List.forall_mem_nil _
  | .print _ _ _, _ => by
    rw [Statement.declaredTypes]
    exact List.forall_mem_nil _
  | .block b, h => by
    rw [Statement.Shaped] at h
    rw [Statement.declaredTypes]
    exact b.declaredTypes_ne_void h
  | .cond _ b rest _, h => by
    rw [Statement.Shaped] at h
    rw [Statement.declaredTypes, List.forall_mem_append]
    exact ⟨b.declaredTypes_ne_void h.2.1, rest.declaredTypes_ne_void h.2.2⟩
  | .loop _ b _, h => by
    rw [Statement.Shaped] at h
    rw [Statement.declaredTypes]
    exact b.declaredTypes_ne_void h.2
  | .count d _ _ b _, h => by
    rw [Statement.Shaped] at h
    rw [Statement.declaredTypes, List.forall_mem_cons]
    exact ⟨h.1.1, b.declaredTypes_ne_void h.2.2.2⟩
  | .return_ _ _, _ => by
    rw [Statement.declaredTypes]
    exact List.forall_mem_nil _
  | .exit _ _, _ => by
    rw [Statement.declaredTypes]
    exact List.forall_mem_nil _

theorem Statement.declaredTypesAll_ne_void :
    ∀ ss : List Statement, Statement.ShapedAll ss →
      ∀ t ∈ Statement.declaredTypesAll ss, t ≠ .void
  | [], _ => by
    rw [Statement.declaredTypesAll]
    exact List.forall_mem_nil _
  | s :: ss, h => by
    rw [Statement.ShapedAll] at h
    rw [Statement.declaredTypesAll, List.forall_mem_append]
    exact ⟨s.declaredTypes_ne_void h.1, Statement.declaredTypesAll_ne_void ss h.2⟩

end

end Scriptling
