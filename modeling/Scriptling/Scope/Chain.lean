import Scriptling.Scope.Table
import Scriptling.Syntax.Statement
import Scriptling.Value.Basic

/-!
# Scriptling.Scope.Chain -- the scopes of a running program

Scopes lie inside one another. The outermost holds the globals and is always there, so a chain is its
current scope and the list of those around it. A name is looked up from the current scope outward and the
first scope that knows it decides; definitions go to the current scope, updates to the deciding one.
A call opens a scope inside the caller's scopes, so the called function sees the caller's names.
-/

set_option autoImplicit false

namespace Scriptling

/-- What opened a scope. -/
inductive ScopeKind where
  /-- The globals, or a block on its own. -/
  | plain
  | conditional
  | loop
  | call
  deriving DecidableEq, Repr

/-- A variable: its value now, the type of all its values, and whether it may be assigned to. -/
structure Binding where
  value : Value
  type : ValueType
  mutable : Bool
  deriving DecidableEq, Repr

/-- One scope. Variables and functions have their names apart. -/
structure Frame where
  kind : ScopeKind
  bindings : Table Binding
  functions : Table Function

/-- A scope without names. -/
def Frame.empty (kind : ScopeKind) : Frame := ⟨kind, [], []⟩

/-- The scopes in force, the current one and those around it from the inside out. -/
structure Scopes where
  current : Frame
  outer : List Frame

namespace Scopes

/-- The globals alone, none of them defined. -/
def initial : Scopes := ⟨.empty .plain, []⟩

/-- All scopes from the inside out. -/
def frames (s : Scopes) : List Frame := s.current :: s.outer

/-- How many scopes there are. -/
def depth (s : Scopes) : Nat := s.frames.length

/-- Opens a scope. -/
def enter (kind : ScopeKind) (s : Scopes) : Scopes := ⟨.empty kind, s.current :: s.outer⟩

/-- Closes the current scope. The globals stay. -/
def leave (s : Scopes) : Scopes :=
  match s.outer with
  | [] => s
  | f :: fs => ⟨f, fs⟩

/-- Whether a scope of the kind is found, from the inside out, no further than the nearest call. -/
def reaches (kind : ScopeKind) : List Frame → Bool
  | [] => false
  | f :: fs =>
    if f.kind = kind then true
    else if f.kind = .call then false
    else reaches kind fs

/-- Whether the current code runs within a scope of the kind, seen from the innermost call. -/
def within (kind : ScopeKind) (s : Scopes) : Bool := reaches kind s.frames

/-! ## Variables -/

/-- Defines a variable in the current scope. -/
def define (name : String) (b : Binding) (s : Scopes) : Scopes :=
  { s with current := { s.current with bindings := s.current.bindings.set name b } }

/-- The variable a name stands for. -/
def binding? (name : String) (s : Scopes) : Option Binding :=
  s.frames.findSome? fun f => f.bindings.get? name

/-- The value of a variable. -/
def get (name : String) (s : Scopes) : Value :=
  match s.binding? name with
  | some b => b.value
  | none => .fault .undefinedVariable

/-- Replaces the value of a name in the first scope that has it. -/
def updateFrames (name : String) (v : Value) : List Frame → Option (List Frame)
  | [] => none
  | f :: fs =>
    match f.bindings.get? name with
    | some b => some ({ f with bindings := f.bindings.set name { b with value := v } } :: fs)
    | none => (updateFrames name v fs).map (f :: ·)

/-- Gives a new value to the variable a name stands for. -/
def update? (name : String) (v : Value) (s : Scopes) : Option Scopes :=
  match updateFrames name v s.frames with
  | some (f :: fs) => some ⟨f, fs⟩
  | _ => none

/-- Whether a name stands for a variable. -/
def isDefined (name : String) (s : Scopes) : Bool := (s.binding? name).isSome

/-- Whether the current scope itself has a variable of the name. -/
def isDefinedHere (name : String) (s : Scopes) : Bool := s.current.bindings.has name

/-! ## Functions -/

/-- Defines a function in the current scope, under its own name. -/
def defineFunction (f : Function) (s : Scopes) : Scopes :=
  { s with current := { s.current with functions := s.current.functions.set f.name f } }

/-- The function a name stands for. -/
def function? (name : String) (s : Scopes) : Option Function :=
  s.frames.findSome? fun f => f.functions.get? name

/-- Whether a name stands for a function. -/
def isFunctionDefined (name : String) (s : Scopes) : Bool := (s.function? name).isSome

end Scopes

end Scriptling
