import Scriptling.Scope.Chain
import Mathlib.Data.List.Forall2

/-!
# Scriptling.Proofs.Scope.Keeps -- what running code may change in the scopes

Code that runs on top of a chain of scopes may give new values to mutable variables, wherever they are,
and nothing else: `Scopes.Keeps`. A declaration may in addition define its name in the current scope, of
which `Frame.KeepsBut` says that all other names are kept.

The chain is seen as the list of its frames throughout. Each operation is described on that list once
(`frames_enter`, `frames_leave`, `frames_update?`), and what it keeps is read off the description.
-/

set_option autoImplicit false

namespace Scriptling

/-! ## Bindings and frames -/

/-- The type and the mutability of a variable are kept, and so is the value of a constant. -/
structure Binding.Keeps (b c : Binding) : Prop where
  type : c.type = b.type
  mutable : c.mutable = b.mutable
  value : b.mutable = false → c.value = b.value

namespace Binding.Keeps

theorem refl (b : Binding) : b.Keeps b := ⟨rfl, rfl, fun _ => rfl⟩

theorem trans {a b c : Binding} (h : a.Keeps b) (k : b.Keeps c) : a.Keeps c where
  type := k.type.trans h.type
  mutable := k.mutable.trans h.mutable
  value hc := (k.value (h.mutable.trans hc)).trans (h.value hc)

/-- A mutable variable may have any value. -/
theorem of_mutable {b : Binding} (hb : b.mutable = true) (v : Value) :
    b.Keeps { b with value := v } :=
  ⟨rfl, rfl, fun hc => absurd (hb.symm.trans hc) (by decide)⟩

end Binding.Keeps

/-- All variables but the ones named are there as before, and the ones named have not disappeared. Neither
the kind nor the functions of the scope have changed. -/
structure Frame.KeepsBut (names : List String) (f g : Frame) : Prop where
  kind : g.kind = f.kind
  functions : g.functions = f.functions
  bindings : ∀ x, x ∉ names → Option.Rel Binding.Keeps (f.bindings.get? x) (g.bindings.get? x)
  bound : ∀ x, f.bindings.has x = true → g.bindings.has x = true

/-- All variables are there as before. -/
abbrev Frame.Keeps (f g : Frame) : Prop := Frame.KeepsBut [] f g

namespace Frame.KeepsBut

variable {names : List String} {f g h : Frame}

theorem refl (names : List String) (f : Frame) : f.KeepsBut names f where
  kind := rfl
  functions := rfl
  bindings x _ := by
    cases f.bindings.get? x with
    | none => exact .none
    | some b => exact .some (.refl b)
  bound _ hx := hx

theorem trans (h₁ : f.KeepsBut names g) (h₂ : g.KeepsBut names h) : f.KeepsBut names h where
  kind := h₂.kind.trans h₁.kind
  functions := h₂.functions.trans h₁.functions
  bindings x hx := by
    have r₁ := h₁.bindings x hx
    have r₂ := h₂.bindings x hx
    revert r₁ r₂
    generalize f.bindings.get? x = b₁, g.bindings.get? x = b₂, h.bindings.get? x = b₃
    intro r₁ r₂
    cases r₁ with
    | none => exact r₂
    | some k₁ =>
      cases r₂ with
      | some k₂ => exact .some (k₁.trans k₂)
  bound x hx := h₂.bound x (h₁.bound x hx)

/-- What keeps all variables keeps all but some. -/
theorem of_keeps (h : f.Keeps g) : f.KeepsBut names g :=
  { h with bindings := fun x _ => h.bindings x (by simp) }

/-- Setting a name keeps all other names. -/
theorem set (f : Frame) (x : String) (b : Binding) :
    f.KeepsBut [x] { f with bindings := f.bindings.set x b } where
  kind := rfl
  functions := rfl
  bindings y hy := by
    have hxy : x ≠ y := fun h => hy (h ▸ List.mem_singleton.2 rfl)
    rw [Table.get?_set, if_neg hxy]
    exact (KeepsBut.refl [] f).bindings y (by simp)
  bound y hy := by
    show ((f.bindings.set x b).get? y).isSome = true
    rw [Table.get?_set]
    split
    · rfl
    · exact hy

/-- Setting a mutable variable to another value keeps all names. -/
theorem set_value {x : String} {b : Binding} (hx : f.bindings.get? x = some b)
    (hb : b.mutable = true) (v : Value) :
    f.Keeps { f with bindings := f.bindings.set x { b with value := v } } where
  kind := rfl
  functions := rfl
  bindings y _ := by
    rw [Table.get?_set]
    by_cases hxy : x = y
    · rw [if_pos hxy, ← hxy, hx]
      exact .some (.of_mutable hb v)
    · rw [if_neg hxy]
      exact (KeepsBut.refl [] f).bindings y (by simp)
  bound y hy := (KeepsBut.set f x _).bound y hy

end Frame.KeepsBut

/-! ## Chains of scopes -/

/-- Frame by frame, all variables are there as before. -/
abbrev Frame.KeepAll (fs gs : List Frame) : Prop := List.Forall₂ Frame.Keeps fs gs

namespace Frame.KeepAll

theorem refl (fs : List Frame) : Frame.KeepAll fs fs :=
  List.forall₂_same.2 fun f _ => .refl [] f

theorem trans {fs gs hs : List Frame} (h : Frame.KeepAll fs gs) (k : Frame.KeepAll gs hs) :
    Frame.KeepAll fs hs := by
  induction h generalizing hs with
  | nil => exact k
  | cons hf _ ih =>
    cases k with
    | cons kf kt => exact .cons (hf.trans kf) (ih kt)

/-- The kinds of the scopes are kept, and so is their number. -/
theorem kinds {fs gs : List Frame} (h : Frame.KeepAll fs gs) :
    gs.map Frame.kind = fs.map Frame.kind := by
  induction h with
  | nil => rfl
  | cons hf _ ih => rw [List.map_cons, List.map_cons, hf.kind, ih]

/-- No function has come in. -/
theorem functions {fs gs : List Frame} (h : Frame.KeepAll fs gs) :
    gs.map Frame.functions = fs.map Frame.functions := by
  induction h with
  | nil => rfl
  | cons hf _ ih => rw [List.map_cons, List.map_cons, hf.functions, ih]

/-- Changing one frame in the midst of others. -/
theorem set_one {f g : Frame} (h : f.Keeps g) (inner outer : List Frame) :
    Frame.KeepAll (inner ++ f :: outer) (inner ++ g :: outer) :=
  List.rel_append (refl inner) (.cons h (refl outer))

end Frame.KeepAll

namespace Scopes

/-- All variables of all scopes are there as before, save those named in the current scope. -/
structure KeepsBut (names : List String) (s t : Scopes) : Prop where
  current : s.current.KeepsBut names t.current
  outer : Frame.KeepAll s.outer t.outer

/-- All variables of all scopes are there as before. -/
abbrev Keeps (s t : Scopes) : Prop := KeepsBut [] s t

/-- All variables of the scopes around the current one are there as before, and the current one is of the
same kind. -/
structure KeepsOuter (s t : Scopes) : Prop where
  kind : t.current.kind = s.current.kind
  outer : Frame.KeepAll s.outer t.outer

variable {names : List String} {s t u : Scopes}

theorem KeepsBut.refl (names : List String) (s : Scopes) : s.KeepsBut names s :=
  ⟨.refl names _, .refl _⟩

theorem KeepsBut.trans (h : s.KeepsBut names t) (k : t.KeepsBut names u) : s.KeepsBut names u :=
  ⟨h.current.trans k.current, h.outer.trans k.outer⟩

theorem KeepsBut.of_keeps (h : s.Keeps t) : s.KeepsBut names t :=
  ⟨.of_keeps h.current, h.outer⟩

theorem KeepsBut.keepsOuter (h : s.KeepsBut names t) : s.KeepsOuter t :=
  ⟨h.current.kind, h.outer⟩

theorem KeepsOuter.refl (s : Scopes) : s.KeepsOuter s := ⟨rfl, .refl _⟩

theorem KeepsOuter.trans (h : s.KeepsOuter t) (k : t.KeepsOuter u) : s.KeepsOuter u :=
  ⟨k.kind.trans h.kind, h.outer.trans k.outer⟩

/-- Frame by frame, from the inside out. -/
theorem keeps_iff : s.Keeps t ↔ Frame.KeepAll s.frames t.frames :=
  ⟨fun h => .cons h.current h.outer, fun h => by
    cases h with
    | cons hc ho => exact ⟨hc, ho⟩⟩

/-! ## The operations -/

/-- Defining a variable keeps all other names. -/
theorem keepsBut_define (x : String) (b : Binding) (s : Scopes) :
    s.KeepsBut [x] (s.define x b) :=
  ⟨.set _ x b, .refl _⟩

/-- Defining a function keeps the scopes around. -/
theorem keepsOuter_defineFunction (f : Function) (s : Scopes) :
    s.KeepsOuter (s.defineFunction f) :=
  ⟨rfl, .refl _⟩

/-- What ran inside a scope kept the scopes around it, so after it is closed all is as before. -/
theorem KeepsOuter.leave {kind : ScopeKind} (h : (s.enter kind).KeepsOuter t) : s.Keeps t.leave := by
  obtain ⟨_, ho⟩ := h
  rcases t with ⟨current, outer⟩
  cases ho with
  | cons hc ho => exact ⟨hc, ho⟩

/-- There is a scope around the one that was opened. -/
theorem KeepsOuter.outer_ne_nil {kind : ScopeKind} (h : (s.enter kind).KeepsOuter t) :
    t.outer ≠ [] := by
  intro hnil
  have ho := h.outer
  rw [hnil] at ho
  cases ho

/-- A name stands for a variable of the nearest frame that has the name. -/
theorem binding?_eq_some {x : String} {b : Binding} (h : s.binding? x = some b) :
    ∃ inner f outer, s.frames = inner ++ f :: outer ∧ f.bindings.get? x = some b ∧
      ∀ g ∈ inner, g.bindings.get? x = none :=
  List.findSome?_eq_some_iff.1 h

/-- Kept variables are still there under their names. -/
theorem KeepsBut.binding? {x : String} {b : Binding} (h : s.KeepsBut names t) (hx : x ∉ names)
    (hb : s.binding? x = some b) : ∃ c, t.binding? x = some c ∧ b.Keeps c := by
  have hall : List.Forall₂
      (fun f g : Frame => Option.Rel Binding.Keeps (f.bindings.get? x) (g.bindings.get? x))
      s.frames t.frames :=
    .cons (h.current.bindings x hx) (h.outer.imp fun f g hfg => hfg.bindings x (by simp))
  unfold Scopes.binding? at *
  revert hall hb
  generalize s.frames = fs, t.frames = gs
  intro hb hall
  induction hall with
  | nil => cases hb
  | @cons f g fs gs hfg _ ih =>
    rw [List.findSome?_cons] at hb ⊢
    revert hfg hb
    generalize f.bindings.get? x = o₁, g.bindings.get? x = o₂
    intro hfg hb
    cases hfg with
    | none => exact ih hb
    | some k =>
      cases hb
      exact ⟨_, rfl, k⟩

/-- In a list of frames, the first that has the name is given the new value. -/
theorem updateFrames_append {x : String} {b : Binding} {f : Frame} (v : Value)
    (hf : f.bindings.get? x = some b) (outer : List Frame) :
    ∀ {inner : List Frame}, (∀ g ∈ inner, g.bindings.get? x = none) →
      updateFrames x v (inner ++ f :: outer) =
        some (inner ++
          { f with bindings := f.bindings.set x { b with value := v } } :: outer)
  | [], _ => by simp [updateFrames, hf]
  | g :: inner, h => by
    have ih := updateFrames_append v hf outer fun g hg => h g (List.mem_cons_of_mem _ hg)
    simp only [List.cons_append, updateFrames, h g List.mem_cons_self, ih, Option.map_some]

/-- Whether a scope of a kind is reached is seen from the kinds alone. -/
theorem reaches_congr (kind : ScopeKind) {fs gs : List Frame}
    (h : gs.map Frame.kind = fs.map Frame.kind) : reaches kind gs = reaches kind fs := by
  induction fs generalizing gs with
  | nil =>
    rw [List.map_eq_nil_iff.1 h]
  | cons f fs ih =>
    obtain ⟨g, gs', rfl, hg, hgs⟩ := List.map_eq_cons_iff.1 h
    rw [reaches, reaches, hg, ih hgs]

/-- Giving a variable a value changes nothing of a frame but its variables. -/
theorem map_updateFrames {β : Type} {φ : Frame → β} (hφ : ∀ f t, φ { f with bindings := t } = φ f)
    {x : String} {v : Value} {fs gs : List Frame} (h : updateFrames x v fs = some gs) :
    gs.map φ = fs.map φ := by
  induction fs generalizing gs with
  | nil => cases h
  | cons f fs ih =>
    simp only [updateFrames] at h
    split at h
    · cases h
      rw [List.map_cons, List.map_cons, hφ]
    · obtain ⟨hs, hhs, rfl⟩ := Option.map_eq_some_iff.1 h
      rw [List.map_cons, List.map_cons, ih hhs]

theorem map_update? {β : Type} {φ : Frame → β} (hφ : ∀ f t, φ { f with bindings := t } = φ f)
    {x : String} {v : Value} (h : s.update? x v = some t) : t.frames.map φ = s.frames.map φ := by
  unfold update? at h
  split at h
  · rename_i f fs hupdate
    cases h
    exact map_updateFrames hφ hupdate
  · cases h

/-- A name that stands for a variable can be given a value, and then one frame has changed. -/
theorem update?_eq_some {x : String} {b : Binding} (v : Value) (h : s.binding? x = some b) :
    ∃ inner f outer t, s.frames = inner ++ f :: outer ∧ f.bindings.get? x = some b ∧
      (∀ g ∈ inner, g.bindings.get? x = none) ∧ s.update? x v = some t ∧
      t.frames = inner ++ { f with bindings := f.bindings.set x { b with value := v } } :: outer := by
  obtain ⟨inner, f, outer, hs, hf, hinner⟩ := binding?_eq_some h
  have hupd := updateFrames_append v hf outer hinner
  unfold update?
  rw [hs, hupd]
  cases inner with
  | nil => exact ⟨[], f, outer, _, rfl, hf, hinner, rfl, rfl⟩
  | cons g inner => exact ⟨g :: inner, f, outer, _, rfl, hf, hinner, rfl, rfl⟩

/-- A name that stands for nothing cannot be given a value. -/
theorem update?_eq_none {x : String} (v : Value) (hx : s.binding? x = none) :
    s.update? x v = none := by
  have hframes : ∀ fs : List Frame, (fs.findSome? fun f => f.bindings.get? x) = none →
      updateFrames x v fs = none := by
    intro fs
    induction fs with
    | nil => exact fun _ => rfl
    | cons f fs ih =>
      intro h
      rw [List.findSome?_cons] at h
      rw [updateFrames]
      split at h
      · cases h
      · rename_i hf
        rw [hf, ih h]
        rfl
  rw [update?, hframes s.frames hx]

/-- Giving a mutable variable a value keeps all variables. -/
theorem keeps_update? {x : String} {b : Binding} (v : Value) (h : s.binding? x = some b)
    (hb : b.mutable = true) : ∃ t, s.update? x v = some t ∧ s.Keeps t := by
  obtain ⟨inner, f, outer, t, hs, hf, _, ht, hframes⟩ := update?_eq_some v h
  refine ⟨t, ht, keeps_iff.2 ?_⟩
  rw [hs, hframes]
  exact .set_one (.set_value hf hb v) inner outer

end Scopes

end Scriptling
