import Scriptling.Syntax.Statement

/-!
# Scriptling.Proofs.Syntax.DeclaredTypes -- the types that a program declares

A statement declares the types of its variables and of the parameters of its functions, at any depth. The
results of functions are not among them.
-/

set_option autoImplicit false

namespace Scriptling

mutual

/-- The types of the variables and parameters declared in a block. -/
def Block.declaredTypes : Block → List ValueType
  | ⟨statements, _⟩ => Statement.declaredTypesAll statements

/-- The types of the variables and parameters declared in the branches of a conditional. -/
def Branches.declaredTypes : Branches → List ValueType
  | .done => []
  | .elif _ b rest _ => b.declaredTypes ++ rest.declaredTypes
  | .otherwise b _ => b.declaredTypes

/-- The types of the parameters of a function and of the variables declared in it. -/
def Function.declaredTypes : Function → List ValueType
  | ⟨_, _, params, body, _⟩ => params.map Param.type ++ body.declaredTypes

/-- The types of the variables and parameters declared in a statement. -/
def Statement.declaredTypes : Statement → List ValueType
  | .var d => [d.type]
  | .func f => f.declaredTypes
  | .expr _ _ => []
  | .print _ _ _ => []
  | .block b => b.declaredTypes
  | .cond _ b rest _ => b.declaredTypes ++ rest.declaredTypes
  | .loop _ b _ => b.declaredTypes
  | .count d _ _ b _ => d.type :: b.declaredTypes
  | .return_ _ _ => []
  | .exit _ _ => []

/-- The types of the variables and parameters declared in statements. -/
def Statement.declaredTypesAll : List Statement → List ValueType
  | [] => []
  | s :: ss => s.declaredTypes ++ Statement.declaredTypesAll ss

end

end Scriptling
