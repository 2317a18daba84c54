import Scriptling.Proofs.Scope.Alike

/-!
# Scriptling.Proofs.Scope.Likeness -- code that is run in two places

The same code can be run in two places: in the scope of a loop here and in that of a block there, or with one more
scope around. It does the same in both if the chains of scopes are related in a way that its steps keep. Which
relations these are depends on the code.

Evaluating an expression, a step looks up a name or gives a variable a value, and it does not see what opened the
scopes: the functions that it calls do, but only up to the scope of the call (`SameNames.beside_call`). So much
less is asked of a relation for expressions, `SameNames`, than for statements, which also define names and find
what an exit leaves, `Likeness`.

Relations are built from others by what one construct puts inside: a scope in each of both chains, of different
kinds but with the same names, `Beside`, or an empty scope in the second chain only, `Extra`.
-/

set_option autoImplicit false

namespace Scriptling.Scopes

variable {S : Scopes → Scopes → Prop} {s t : Scopes} {k k' : ScopeKind}

/-! ## What the steps of code keep -/

/-- In chains so related, names stand for the same, and they are so related still when a variable has been given
a value. -/
structure SameNames (S : Scopes → Scopes → Prop) : Prop where
  bindings : ∀ {s t}, S s t → ∀ x, s.binding? x = t.binding? x
  functions : ∀ {s t}, S s t → ∀ x, s.function? x = t.function? x
  update? : ∀ {s t}, S s t → ∀ x v, Option.Rel S (s.update? x v) (t.update? x v)

/-- In chains so related, exits find the same, too, and they are so related still when a name has been defined. -/
structure Likeness (S : Scopes → Scopes → Prop) : Prop extends SameNames S where
  inLoop : ∀ {s t}, S s t → s.within .loop = t.within .loop
  inConditional : ∀ {s t}, S s t → s.within .conditional = t.within .conditional
  define : ∀ {s t}, S s t → ∀ x b, S (s.define x b) (t.define x b)
  defineFunction : ∀ {s t}, S s t → ∀ f, S (s.defineFunction f) (t.defineFunction f)

theorem SameNames.get (h : SameNames S) (hst : S s t) (x : String) : s.get x = t.get x := by
  rw [Scopes.get, Scopes.get, h.bindings hst]

theorem SameNames.isFunctionDefined (h : SameNames S) (hst : S s t) (x : String) :
    s.isFunctionDefined x = t.isFunctionDefined x := by
  rw [Scopes.isFunctionDefined, Scopes.isFunctionDefined, h.functions hst]

/-- The very same chain. -/
theorem likeness_eq : Likeness Eq where
  bindings h x := by rw [h]
  functions h x := by rw [h]
  update? := by
    rintro s _ rfl x v
    cases s.update? x v with
    | none => exact .none
    | some s' => exact .some rfl
  inLoop h := by rw [h]
  inConditional h := by rw [h]
  define h x b := by rw [h]
  defineFunction h f := by rw [h]

/-- Chains that are updated alike are so under scopes that the update does not reach. -/
theorem rel_map {T : Scopes → Scopes → Prop} {o o' : Option Scopes} {f g : Scopes → Scopes}
    (h : Option.Rel S o o') (hT : ∀ {s t}, S s t → T (f s) (g t)) : Option.Rel T (o.map f) (o'.map g) := by
  cases h with
  | none => exact .none
  | some hst => exact .some (hT hst)

/-! ## Scopes with the same names -/

/-- The current scopes are of the two kinds and have the same names, and the chains around them are so
related. -/
inductive Beside (k k' : ScopeKind) (S : Scopes → Scopes → Prop) : Scopes → Scopes → Prop
  | intro {s t : Scopes} (bindings : Table Binding) (functions : Table Function) : S s t →
    Beside k k' S (s.inner ⟨k, bindings, functions⟩) (t.inner ⟨k', bindings, functions⟩)

theorem Beside.enter (h : S s t) : Beside k k' S (s.enter k) (t.enter k') := .intro [] [] h

theorem Beside.leave (h : Beside k k' S s t) : S s.leave t.leave := by
  cases h with
  | intro bindings functions h => exact h

theorem Beside.define (h : Beside k k' S s t) (x : String) (b : Binding) :
    Beside k k' S (s.define x b) (t.define x b) := by
  cases h with
  | intro bindings functions h => exact .intro (bindings.set x b) functions h

theorem Beside.defineFunction (h : Beside k k' S s t) (f : Function) :
    Beside k k' S (s.defineFunction f) (t.defineFunction f) := by
  cases h with
  | intro bindings functions h => exact .intro bindings (functions.set f.name f) h

theorem SameNames.beside (h : SameNames S) (k k' : ScopeKind) : SameNames (Beside k k' S) where
  bindings := by
    rintro _ _ ⟨bindings, functions, hst⟩ x
    rw [binding?_inner, binding?_inner, h.bindings hst]
  functions := by
    rintro _ _ ⟨bindings, functions, hst⟩ x
    rw [function?_inner, function?_inner, h.functions hst]
  update? := by
    rintro _ _ ⟨bindings, functions, hst⟩ x v
    cases hx : Table.get? x bindings with
    | some b =>
      rw [update?_inner_some (f := ⟨k, bindings, functions⟩) hx,
        update?_inner_some (f := ⟨k', bindings, functions⟩) hx]
      exact .some (.intro _ functions hst)
    | none =>
      rw [update?_inner_none (f := ⟨k, bindings, functions⟩) hx,
        update?_inner_none (f := ⟨k', bindings, functions⟩) hx]
      exact rel_map (h.update? hst x v) (.intro bindings functions)

/-- Statements can be run there if exits find the same. -/
theorem SameNames.likeness_beside (h : SameNames S)
    (hloop : ∀ {s t}, Beside k k' S s t → s.within .loop = t.within .loop)
    (hconditional : ∀ {s t}, Beside k k' S s t → s.within .conditional = t.within .conditional) :
    Likeness (Beside k k' S) where
  toSameNames := h.beside k k'
  inLoop := hloop
  inConditional := hconditional
  define := Beside.define
  defineFunction := Beside.defineFunction

/-- Exits find nothing outside the scope of a call. -/
theorem SameNames.beside_call (h : SameNames S) : Likeness (Beside .call .call S) :=
  h.likeness_beside (fun ⟨_, _, _⟩ => rfl) fun ⟨_, _, _⟩ => rfl

/-- Scopes of the same kind. -/
theorem Likeness.beside (h : Likeness S) (k : ScopeKind) : Likeness (Beside k k S) := by
  refine h.likeness_beside ?_ ?_
  · rintro _ _ ⟨bindings, functions, hst⟩
    rw [within_inner, within_inner, h.inLoop hst]
  · rintro _ _ ⟨bindings, functions, hst⟩
    rw [within_inner, within_inner, h.inConditional hst]

/-! ## A scope without names -/

/-- The second chain has one more scope, of the kind and without names, and around it the chains are so
related. -/
inductive Extra (k : ScopeKind) (S : Scopes → Scopes → Prop) : Scopes → Scopes → Prop
  | intro {s t : Scopes} : S s t → Extra k S s (t.inner (.empty k))

theorem Extra.enter (h : S s t) : Extra k S s (t.enter k) := .intro h

theorem Extra.leave (h : Extra k S s t) : S s t.leave := by
  cases h with
  | intro h => exact h

theorem SameNames.extra (h : SameNames S) (k : ScopeKind) : SameNames (Extra k S) where
  bindings := by
    rintro s _ ⟨hst⟩ x
    rw [binding?_inner, h.bindings hst]
    rfl
  functions := by
    rintro s _ ⟨hst⟩ x
    rw [function?_inner, h.functions hst]
    rfl
  update? := by
    rintro s _ ⟨hst⟩ x v
    have hextra := rel_map (T := Extra k S) (f := id) (h.update? hst x v) .intro
    rwa [Option.map_id, id, ← update?_inner_none (f := .empty k) rfl] at hextra

end Scriptling.Scopes
