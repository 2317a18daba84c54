import Scriptling.Syntax.Statement

/-!
# Scriptling.Proofs.Syntax.Places -- where the statements of a program stand

A statement stands in the bodies of the statements around it, up to the innermost function. What an exit
may leave and what a `return` answers is read off from there: `Context` keeps of the statements around no
more than that, and `Program.Stands` tells the context of every statement of a program, at any depth. A
function starts anew: its body knows of no loop and no conditional around the function.
-/

set_option autoImplicit false

namespace Scriptling

/-! ## Statements in the bodies of a statement -/

/-- The statements of the bodies of all branches. -/
def Branches.inner : Branches → List Statement
  | .done => []
  | .elif _ b rest _ => b.statements ++ rest.inner
  | .otherwise b _ => b.statements

/-- The statements that stand in a body of the statement. The body of a function is not one of them: it
is not executed where the function is declared. -/
def Statement.inner : Statement → List Statement
  | .block b => b.statements
  | .cond _ b rest _ => b.statements ++ rest.inner
  | .loop _ b _ => b.statements
  | .count _ _ _ b _ => b.statements
  | _ => []

/-! ## Contexts -/

/-- What lies around a statement, up to the innermost function: a loop, a conditional, and the type that
the function promises. Outside of all functions there is no such type. -/
structure Context where
  inLoop : Bool
  inConditional : Bool
  promise : Option ValueType
  deriving DecidableEq, Repr

namespace Context

/-- Outside of everything. -/
def top : Context := ⟨false, false, none⟩

/-- In the body of a function. -/
def body (f : Function) : Context := ⟨false, false, some f.result⟩

/-- In a body of the statement. -/
def inside (c : Context) : Statement → Context
  | .cond _ _ _ _ => { c with inConditional := true }
  | .loop _ _ _ => { c with inLoop := true }
  | .count _ _ _ _ _ => { c with inLoop := true }
  | _ => c

/-- Whether there is something around that the exit leaves. -/
def places (c : Context) : Exit → Bool
  | .break_ => c.inLoop
  | .remit_ => c.inConditional

end Context

/-- The statement stands in the program, in the context. -/
inductive Program.Stands (p : Program) : Context → Statement → Prop
  | top {s : Statement} : s ∈ p.statements → p.Stands .top s
  | inside {c : Context} {s t : Statement} : p.Stands c s → t ∈ s.inner → p.Stands (c.inside s) t
  | body {c : Context} {f : Function} {t : Statement} :
    p.Stands c (.func f) → t ∈ f.body.statements → p.Stands (.body f) t

end Scriptling
