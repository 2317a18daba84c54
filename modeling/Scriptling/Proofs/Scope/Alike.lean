import Scriptling.Proofs.Scope.Keeps

/-!
# Scriptling.Proofs.Scope.Alike -- chains of scopes that look alike

Of the scopes around it, running code sees what each name stands for, and whether an exit finds a loop or a
conditional. Two chains can agree on that, `Scopes.LookAlike`, and differ in everything else: in how many
scopes there are, in what opened them, and in the variables that others hide.

That two chains look alike is not enough to go on: where a scope is closed, what it hid comes to light. But
what code closes it has opened itself, in both chains alike. So the chains stay alike under a number of
scopes that are the very same in both, `Scopes.AlikeUnder`. Each operation is described by what it does to a
chain under one scope (`binding?_inner`, `update?_inner_some`), and that is enough for any number of them.
-/

set_option autoImplicit false

namespace Scriptling.Scopes

variable {s t : Scopes} {k : Nat}

/-! ## What names stand for after an operation -/

theorem binding?_define (x : String) (b : Binding) (s : Scopes) (y : String) :
    (s.define x b).binding? y = if x = y then some b else s.binding? y := by
  unfold binding? define frames
  rw [List.findSome?_cons, List.findSome?_cons, Table.get?_set]
  by_cases hxy : x = y
  · rw [if_pos hxy, if_pos hxy]
  · rw [if_neg hxy, if_neg hxy]

theorem function?_defineFunction (f : Function) (s : Scopes) (y : String) :
    (s.defineFunction f).function? y = if f.name = y then some f else s.function? y := by
  unfold function? defineFunction frames
  rw [List.findSome?_cons, List.findSome?_cons, Table.get?_set]
  by_cases hfy : f.name = y
  · rw [if_pos hfy, if_pos hfy]
  · rw [if_neg hfy, if_neg hfy]

/-- After an update a name stands for the new value, and all others for what they stood for. -/
theorem binding?_update? {x : String} {b : Binding} (v : Value) (hx : s.binding? x = some b) :
    ∃ s', s.update? x v = some s' ∧
      ∀ y, s'.binding? y = if x = y then some { b with value := v } else s.binding? y := by
  obtain ⟨inner, f, outer, s', hs, _, hinner, hupdate, hs'⟩ := update?_eq_some v hx
  refine ⟨s', hupdate, fun y => ?_⟩
  unfold binding?
  rw [hs, hs', List.findSome?_append, List.findSome?_append, List.findSome?_cons, List.findSome?_cons,
    Table.get?_set]
  by_cases hxy : x = y
  · rw [if_pos hxy, if_pos hxy, ← hxy, List.findSome?_eq_none_iff.2 hinner, Option.none_or]
  · rw [if_neg hxy, if_neg hxy]

/-- Giving a variable a value does not change what names of functions stand for. -/
theorem function?_update? {x : String} {v : Value} {s' : Scopes} (h : s.update? x v = some s')
    (y : String) : s'.function? y = s.function? y := by
  have hfunctions : s'.frames.map Frame.functions = s.frames.map Frame.functions :=
    map_update? (fun _ _ => rfl) h
  have hmap (r : Scopes) :
      r.function? y = (r.frames.map Frame.functions).findSome? fun t => t.get? y := by
    rw [List.findSome?_map]
    rfl
  rw [hmap, hmap, hfunctions]

theorem within_update? {x : String} {v : Value} {s' : Scopes} (h : s.update? x v = some s')
    (kind : ScopeKind) : s'.within kind = s.within kind :=
  reaches_congr kind (map_update? (fun _ _ => rfl) h)

/-! ## One scope inside others -/

/-- The scopes with one more inside of them. -/
def inner (f : Frame) (s : Scopes) : Scopes := ⟨f, s.frames⟩

theorem binding?_inner (f : Frame) (s : Scopes) (x : String) :
    (s.inner f).binding? x = (f.bindings.get? x).or (s.binding? x) := by
  show List.findSome? _ (f :: s.frames) = _
  rw [List.findSome?_cons]
  cases f.bindings.get? x <;> rfl

theorem function?_inner (f : Frame) (s : Scopes) (x : String) :
    (s.inner f).function? x = (f.functions.get? x).or (s.function? x) := by
  show List.findSome? _ (f :: s.frames) = _
  rw [List.findSome?_cons]
  cases f.functions.get? x <;> rfl

theorem within_inner (f : Frame) (s : Scopes) (kind : ScopeKind) :
    (s.inner f).within kind =
      if f.kind = kind then true else if f.kind = .call then false else s.within kind := rfl

/-- What the inner scope has is given the value there. -/
theorem update?_inner_some {f : Frame} {x : String} {b : Binding} (hx : f.bindings.get? x = some b)
    (s : Scopes) (v : Value) :
    (s.inner f).update? x v =
      some (s.inner { f with bindings := f.bindings.set x { b with value := v } }) := by
  have hframes : updateFrames x v (s.inner f).frames =
      some ({ f with bindings := f.bindings.set x { b with value := v } } :: s.frames) :=
    updateFrames_append v hx s.frames (List.forall_mem_nil _)
  rw [update?, hframes]
  rfl

/-- What it does not have is given the value in the scopes around it. -/
theorem update?_inner_none {f : Frame} {x : String} (hx : f.bindings.get? x = none) (s : Scopes)
    (v : Value) : (s.inner f).update? x v = (s.update? x v).map (inner f) := by
  have hframes : updateFrames x v (s.inner f).frames =
      (updateFrames x v s.frames).map (f :: ·) := by
    show updateFrames x v (f :: s.frames) = _
    rw [updateFrames, hx]
  rw [update?, update?, hframes]
  -- The scopes around are not empty, and an update leaves their number.
  cases hupdate : updateFrames x v s.frames with
  | none => rfl
  | some gs =>
    have hlength := map_updateFrames (φ := Frame.kind) (fun _ _ => rfl) hupdate
    cases gs with
    | nil => cases hlength
    | cons g gs => rfl

/-! ## Looking alike -/

/-- Seen by running code the chains of scopes are the same: all names stand for the same, and exits find
the same. -/
structure LookAlike (s t : Scopes) : Prop where
  bindings : ∀ x, s.binding? x = t.binding? x
  functions : ∀ x, s.function? x = t.function? x
  inLoop : s.within .loop = t.within .loop
  inConditional : s.within .conditional = t.within .conditional

namespace LookAlike

theorem inner (h : s.LookAlike t) (f : Frame) : (s.inner f).LookAlike (t.inner f) where
  bindings x := by rw [binding?_inner, binding?_inner, h.bindings]
  functions x := by rw [function?_inner, function?_inner, h.functions]
  inLoop := by rw [within_inner, within_inner, h.inLoop]
  inConditional := by rw [within_inner, within_inner, h.inConditional]

theorem define (h : s.LookAlike t) (x : String) (b : Binding) :
    (s.define x b).LookAlike (t.define x b) where
  bindings y := by rw [binding?_define, binding?_define, h.bindings]
  functions := h.functions
  inLoop := h.inLoop
  inConditional := h.inConditional

theorem defineFunction (h : s.LookAlike t) (f : Function) :
    (s.defineFunction f).LookAlike (t.defineFunction f) where
  bindings := h.bindings
  functions y := by rw [function?_defineFunction, function?_defineFunction, h.functions]
  inLoop := h.inLoop
  inConditional := h.inConditional

theorem update? (h : s.LookAlike t) (x : String) (v : Value) :
    Option.Rel LookAlike (s.update? x v) (t.update? x v) := by
  cases hs : s.binding? x with
  | none =>
    rw [update?_eq_none v hs, update?_eq_none v ((h.bindings x).symm.trans hs)]
    exact .none
  | some b =>
    obtain ⟨s', hs', hsb⟩ := binding?_update? v hs
    obtain ⟨t', ht', htb⟩ := binding?_update? v ((h.bindings x).symm.trans hs)
    rw [hs', ht']
    refine .some ⟨fun y => ?_, fun y => ?_, ?_, ?_⟩
    · rw [hsb, htb, h.bindings]
    · rw [function?_update? hs', function?_update? ht', h.functions]
    · rw [within_update? hs', within_update? ht', h.inLoop]
    · rw [within_update? hs', within_update? ht', h.inConditional]

end LookAlike

/-! ## Alike under the same scopes -/

/-- The innermost scopes, so many, are the very same in both chains, and around them the chains look
alike. -/
inductive AlikeUnder : Nat → Scopes → Scopes → Prop
  | base {s t : Scopes} : s.LookAlike t → AlikeUnder 0 s t
  | inner {k : Nat} {s t : Scopes} (f : Frame) :
    AlikeUnder k s t → AlikeUnder (k + 1) (s.inner f) (t.inner f)

namespace AlikeUnder

theorem lookAlike (h : AlikeUnder k s t) : s.LookAlike t := by
  induction h with
  | base h => exact h
  | inner f _ ih => exact ih.inner f

theorem enter (h : AlikeUnder k s t) (kind : ScopeKind) :
    AlikeUnder (k + 1) (s.enter kind) (t.enter kind) :=
  h.inner (.empty kind)

/-- What comes to light where a scope is closed is alike, too. -/
theorem leave (h : AlikeUnder (k + 1) s t) : AlikeUnder k s.leave t.leave := by
  cases h with
  | inner f h => exact h

theorem define (h : AlikeUnder k s t) (x : String) (b : Binding) :
    AlikeUnder k (s.define x b) (t.define x b) := by
  cases h with
  | base h => exact .base (h.define x b)
  | inner f h => exact h.inner { f with bindings := f.bindings.set x b }

theorem defineFunction (h : AlikeUnder k s t) (g : Function) :
    AlikeUnder k (s.defineFunction g) (t.defineFunction g) := by
  cases h with
  | base h => exact .base (h.defineFunction g)
  | inner f h => exact h.inner { f with functions := f.functions.set g.name g }

theorem update? (h : AlikeUnder k s t) (x : String) (v : Value) :
    Option.Rel (AlikeUnder k) (s.update? x v) (t.update? x v) := by
  -- On the scopes that are the same in both: the first of them that has the name is given the value in
  -- both chains, and if none has it, the chains around look alike.
  induction h with
  | @base s t h =>
    have hupdate := h.update? x v
    revert hupdate
    generalize s.update? x v = s', t.update? x v = t'
    rintro (hst | _)
    · exact .some (.base hst)
    · exact .none
  | @inner k s t f h ih =>
    cases hx : f.bindings.get? x with
    | some b =>
      rw [update?_inner_some hx, update?_inner_some hx]
      exact .some (h.inner _)
    | none =>
      rw [update?_inner_none hx, update?_inner_none hx]
      revert ih
      generalize s.update? x v = s', t.update? x v = t'
      rintro (hst | _)
      · exact .some (hst.inner f)
      · exact .none

end AlikeUnder

end Scriptling.Scopes
