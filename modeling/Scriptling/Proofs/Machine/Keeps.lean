import Scriptling.Proofs.Scope.Keeps
import Scriptling.Proofs.Syntax.DeclaredTypes
import Scriptling.Proofs.Trace.Basic

/-!
# Scriptling.Proofs.Machine.Keeps -- what a construct may have changed when it ends

An expression leaves all variables, functions and calls as they were, but for the values of mutable
variables (`Machine.Keeps`); a statement may have declared its own name in the current scope
(`Machine.Changes`); statements one after another keep what lies around the current scope
(`Machine.KeepsOuter`). All three speak of the end with a result and with a fault alike.
-/

set_option autoImplicit false

namespace Scriptling

/-- The declared types of all functions of a scope satisfy `T`. -/
def Frame.FunctionsOf (T : ValueType → Prop) (f : Frame) : Prop :=
  ∀ x g, f.functions.get? x = some g → ∀ t ∈ g.declaredTypes, T t

namespace Machine

/-- All variables are as before, save those named in the current scope; the calls under way and the file
are the same. -/
structure KeepsBut (names : List String) (m m' : Machine) : Prop where
  scopes : m.scopes.KeepsBut names m'.scopes
  results : m'.results = m.results
  file : m'.file = m.file

/-- All variables are as before. -/
abbrev Keeps (m m' : Machine) : Prop := KeepsBut [] m m'

/-- All variables of the scopes around the current one are as before. -/
structure KeepsOuter (m m' : Machine) : Prop where
  scopes : m.scopes.KeepsOuter m'.scopes
  results : m'.results = m.results
  file : m'.file = m.file

/-- All functions in scope satisfy `K`. -/
def Knows (K : Function → Prop) (m : Machine) : Prop :=
  ∀ f ∈ m.scopes.frames, ∀ x g, f.functions.get? x = some g → K g

/-- The declared types of all functions in scope satisfy `T`. -/
def FunctionsOf (T : ValueType → Prop) (m : Machine) : Prop :=
  ∀ f ∈ m.scopes.frames, f.FunctionsOf T

variable {T : ValueType → Prop} {K : Function → Prop} {names : List String} {m m' m'' : Machine}

theorem KeepsBut.refl (names : List String) (m : Machine) : m.KeepsBut names m :=
  ⟨.refl names _, rfl, rfl⟩

theorem KeepsBut.trans (h : m.KeepsBut names m') (k : m'.KeepsBut names m'') :
    m.KeepsBut names m'' :=
  ⟨h.scopes.trans k.scopes, k.results.trans h.results, k.file.trans h.file⟩

theorem KeepsBut.of_keeps (h : m.Keeps m') : m.KeepsBut names m' :=
  ⟨.of_keeps h.scopes, h.results, h.file⟩

theorem KeepsBut.keepsOuter (h : m.KeepsBut names m') : m.KeepsOuter m' :=
  ⟨h.scopes.keepsOuter, h.results, h.file⟩

theorem KeepsOuter.refl (m : Machine) : m.KeepsOuter m := ⟨.refl _, rfl, rfl⟩

theorem KeepsOuter.trans (h : m.KeepsOuter m') (k : m'.KeepsOuter m'') : m.KeepsOuter m'' :=
  ⟨h.scopes.trans k.scopes, k.results.trans h.results, k.file.trans h.file⟩

/-! ## Functions in scope -/

/-- Every function satisfies the predicate that says nothing. -/
theorem knows_true (m : Machine) : m.Knows fun _ => True :=
  fun _ _ _ _ _ => trivial

/-- A fresh machine has no functions. -/
theorem knows_initial (K : Function → Prop) (out : Output) : (initial out).Knows K := by
  intro f hf x g hg
  rw [List.mem_singleton.1 hf] at hg
  cases hg

/-- Where the functions of all scopes are the same, so are those in scope. -/
theorem Knows.congr (hm : m.Knows K)
    (h : m'.scopes.frames.map Frame.functions = m.scopes.frames.map Frame.functions) :
    m'.Knows K := by
  intro f hf x g hg
  have hmem : f.functions ∈ m'.scopes.frames.map Frame.functions := List.mem_map_of_mem hf
  rw [h] at hmem
  obtain ⟨f', hf', hfunctions⟩ := List.mem_map.1 hmem
  exact hm f' hf' x g (hfunctions ▸ hg)

/-- A scope that has just been opened has no functions. -/
theorem Knows.enter (hm : m.Knows K) (kind : ScopeKind) :
    Knows K { m with scopes := m.scopes.enter kind } := by
  intro f hf
  rcases List.mem_cons.1 hf with rfl | hf
  · intro x g hg
    cases hg
  · exact hm f hf

theorem Knows.leave (hm : m.Knows K) : Knows K { m with scopes := m.scopes.leave } := by
  rcases m with ⟨file, ⟨current, outer⟩, results, output⟩
  cases outer with
  | nil => exact hm
  | cons f fs =>
    intro g hg
    exact hm g (List.mem_cons_of_mem current hg)

theorem Knows.defineFunction (hm : m.Knows K) {f : Function} (hf : K f) :
    Knows K { m with scopes := m.scopes.defineFunction f } := by
  intro g hg
  rcases List.mem_cons.1 hg with rfl | hg
  · intro x fn hx
    replace hx : (m.scopes.current.functions.set f.name f).get? x = some fn := hx
    rw [Table.get?_set] at hx
    split at hx
    · cases hx
      exact hf
    · exact hm _ List.mem_cons_self x fn hx
  · exact hm g (List.mem_cons_of_mem _ hg)

/-- A function that is found is one of those in scope. -/
theorem Knows.function? {name : String} {f : Function} (hm : m.Knows K)
    (hf : m.scopes.function? name = some f) : K f := by
  obtain ⟨inner, g, outer, hs, hg, _⟩ := List.findSome?_eq_some_iff.1 hf
  have hmem : g ∈ m.scopes.frames := by
    rw [hs]
    simp
  exact hm g hmem name f hg

/-- Every function satisfies the predicate on types that says nothing. -/
theorem functionsOf_true (m : Machine) : m.FunctionsOf fun _ => True :=
  fun _ _ _ _ _ _ _ => trivial

theorem functionsOf_initial (T : ValueType → Prop) (out : Output) :
    (initial out).FunctionsOf T :=
  knows_initial (fun g => ∀ t ∈ g.declaredTypes, T t) out

/-- Where no function has come in, the functions in scope are as they were. -/
theorem FunctionsOf.of_keepsBut (hm : m.FunctionsOf T) (h : m.KeepsBut names m') :
    m'.FunctionsOf T := by
  refine Knows.congr (K := fun g => ∀ t ∈ g.declaredTypes, T t) hm ?_
  show m'.scopes.current.functions :: m'.scopes.outer.map Frame.functions = _
  rw [h.scopes.current.functions, h.scopes.outer.functions]
  rfl

theorem FunctionsOf.enter (hm : m.FunctionsOf T) (kind : ScopeKind) :
    FunctionsOf T { m with scopes := m.scopes.enter kind } :=
  Knows.enter (K := fun g => ∀ t ∈ g.declaredTypes, T t) hm kind

theorem FunctionsOf.leave (hm : m.FunctionsOf T) :
    FunctionsOf T { m with scopes := m.scopes.leave } :=
  Knows.leave (K := fun g => ∀ t ∈ g.declaredTypes, T t) hm

theorem FunctionsOf.defineFunction (hm : m.FunctionsOf T) {f : Function}
    (hf : ∀ t ∈ f.declaredTypes, T t) :
    FunctionsOf T { m with scopes := m.scopes.defineFunction f } :=
  Knows.defineFunction (K := fun g => ∀ t ∈ g.declaredTypes, T t) hm hf

theorem FunctionsOf.function? {name : String} {f : Function} (hm : m.FunctionsOf T)
    (hf : m.scopes.function? name = some f) : ∀ t ∈ f.declaredTypes, T t :=
  Knows.function? (K := fun g => ∀ t ∈ g.declaredTypes, T t) hm hf

/-! ## What statements change -/

/-- What a statement may have changed: a declaration its own name in the current scope, any other
statement no more than an expression. -/
def Changes (s : Statement) (m m' : Machine) : Prop :=
  match s with
  | .var d => m.KeepsBut [d.name] m'
  | .func f =>
    m' = m ∨ m.scopes.isFunctionDefined f.name = false ∧ m' = (Action.defineFunction f).after m
  | _ => m.Keeps m'

/-- No statement changes more than the current scope. -/
theorem Changes.keepsOuter {s : Statement} (h : m.Changes s m') : m.KeepsOuter m' := by
  cases s with
  | func f =>
    rcases h with rfl | ⟨_, rfl⟩
    · exact .refl m'
    · exact ⟨Scopes.keepsOuter_defineFunction f m.scopes, rfl, rfl⟩
  | var d => exact KeepsBut.keepsOuter h
  | _ => exact KeepsBut.keepsOuter h

/-- A function that has come in is one that the statement declares. -/
theorem FunctionsOf.of_changes {s : Statement} (hm : m.FunctionsOf T) (h : m.Changes s m')
    (hs : ∀ t ∈ s.declaredTypes, T t) : m'.FunctionsOf T := by
  cases s with
  | func f =>
    rcases h with rfl | ⟨_, rfl⟩
    · exact hm
    · exact hm.defineFunction hs
  | var d => exact hm.of_keepsBut h
  | _ => exact hm.of_keepsBut h

/-- No call is under way and only the outermost scope is open. -/
structure Idle (m : Machine) : Prop where
  depth : m.scopes.depth = 1
  results : m.results = []

theorem idle_initial (out : Output) : (initial out).Idle := ⟨rfl, rfl⟩

theorem Idle.of_keepsOuter (hm : m.Idle) (h : m.KeepsOuter m') : m'.Idle := by
  refine ⟨?_, h.results.trans hm.results⟩
  have hlen : m.scopes.outer.length = m'.scopes.outer.length := h.scopes.outer.length_eq
  have hdepth : m.scopes.outer.length + 1 = 1 := hm.depth
  show m'.scopes.outer.length + 1 = 1
  omega

end Machine

end Scriptling
