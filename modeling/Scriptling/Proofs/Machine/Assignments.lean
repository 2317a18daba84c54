import Scriptling.Proofs.Machine.Frames

/-!
# Scriptling.Proofs.Machine.Assignments -- assignments are atomic

An assignment looks at its target before it evaluates the value, and stores after that. The value may call
functions, and these may hide the target, declare its name anew and assign to it. All the same it is one
variable that is checked first and stored to last: it lies in the same scope, because evaluating an expression
leaves all scopes in place, and it has kept its type and mutability, because only values change
(`Scopes.Slot.of_keeps`). So the store does not fail (`Scopes.Slot.update?`).

The main result is `assignments_are_atomic`.
-/

set_option autoImplicit false

namespace Scriptling

/-! ## Variables and their scopes -/

section Kept

variable {f g : Frame} {fs gs outer : List Frame} {x : String} {b : Binding}

/-- A scope that did not have the name does not have it when all is kept. -/
theorem Frame.KeepsBut.get?_eq_none (h : f.Keeps g) (hx : f.bindings.get? x = none) :
    g.bindings.get? x = none := by
  have hrel := h.bindings x List.not_mem_nil
  rw [hx] at hrel
  generalize g.bindings.get? x = o at hrel
  cases hrel
  rfl

theorem Frame.KeepsBut.get?_eq_some (h : f.Keeps g) (hx : f.bindings.get? x = some b) :
    ∃ c, g.bindings.get? x = some c ∧ b.Keeps c := by
  have hrel := h.bindings x List.not_mem_nil
  rw [hx] at hrel
  generalize g.bindings.get? x = o at hrel ⊢
  cases hrel with
  | some hbc => exact ⟨_, rfl, hbc⟩

theorem Frame.KeepAll.get?_eq_none (h : Frame.KeepAll fs gs) (hx : ∀ f ∈ fs, f.bindings.get? x = none) :
    ∀ g ∈ gs, g.bindings.get? x = none := by
  induction h with
  | nil => exact List.forall_mem_nil _
  | cons hfg _ ih =>
    rw [List.forall_mem_cons] at hx ⊢
    exact ⟨hfg.get?_eq_none hx.1, ih hx.2⟩

/-- What is kept of a scope lies where the scope was. -/
theorem Frame.KeepAll.split : ∀ {inner gs : List Frame}, Frame.KeepAll (inner ++ f :: outer) gs →
    ∃ inner' g outer', gs = inner' ++ g :: outer' ∧ Frame.KeepAll inner inner' ∧ f.Keeps g
  | [], _, .cons hf _ => ⟨[], _, _, rfl, .nil, hf⟩
  | _ :: _, _, .cons hc h => by
    obtain ⟨inner', g, outer', rfl, hinner, hf⟩ := split h
    exact ⟨_ :: inner', g, outer', rfl, .cons hc hinner, hf⟩

end Kept

namespace Scopes

variable {s t : Scopes} {x : String} {inner outer : List Frame} {f : Frame} {b : Binding}

/-- The name stands for the variable `b` of the scope `f`, which has the scopes `inner` inside of it and the
scopes `outer` around it. -/
structure Slot (s : Scopes) (x : String) (inner : List Frame) (f : Frame) (outer : List Frame)
    (b : Binding) : Prop where
  frames : s.frames = inner ++ f :: outer
  inside : ∀ g ∈ inner, g.bindings.get? x = none
  binding : f.bindings.get? x = some b

/-- The variable that a name stands for lies in some scope. -/
theorem exists_slot (h : s.binding? x = some b) : ∃ inner f outer, s.Slot x inner f outer b := by
  obtain ⟨inner, f, outer, hs, hf, hinner⟩ := binding?_eq_some h
  exact ⟨inner, f, outer, hs, hinner, hf⟩

/-- Where all variables are kept, the name stands for the variable of the same scope as before. -/
theorem Slot.of_keeps (h : s.Slot x inner f outer b) (hst : s.Keeps t) :
    ∃ inner' g outer' c, t.Slot x inner' g outer' c ∧ inner'.length = inner.length ∧ b.Keeps c := by
  have hall : Frame.KeepAll (inner ++ f :: outer) t.frames := h.frames ▸ keeps_iff.1 hst
  obtain ⟨inner', g, outer', ht, hinner, hfg⟩ := hall.split
  obtain ⟨c, hc, hbc⟩ := hfg.get?_eq_some h.binding
  exact ⟨inner', g, outer', c, ⟨ht, hinner.get?_eq_none h.inside, hc⟩, hinner.length_eq.symm, hbc⟩

theorem Slot.binding? (h : s.Slot x inner f outer b) : s.binding? x = some b := by
  unfold Scopes.binding?
  rw [h.frames, List.findSome?_append, List.findSome?_eq_none_iff.2 h.inside, Option.none_or,
    List.findSome?_cons, h.binding]

/-- The variable can be given a value, and nothing else has changed then. -/
theorem Slot.update? (h : s.Slot x inner f outer b) (v : Value) :
    ∃ t, s.update? x v = some t ∧
      t.frames = inner ++ { f with bindings := f.bindings.set x { b with value := v } } :: outer := by
  have hframes := updateFrames_append v h.binding outer h.inside
  rw [← h.frames] at hframes
  unfold Scopes.update?
  rw [hframes]
  cases inner with
  | nil => exact ⟨_, rfl, rfl⟩
  | cons g inner => exact ⟨_, rfl, rfl⟩

end Scopes

namespace Machine

open Effects

/-! ## The steps of an assignment -/

/-- What an assignment to the variable `c` comes to, once its value has come to `v`: a fault, or what is
stored. -/
def assigned (op : AssignOperator) (c : Binding) (v : Value) : Value :=
  if v.isFault then v
  else
    let result := combine op c.value v
    if result.isFault then result
    else if result.type? = some c.type then result
    else .fault .wrongType

/-- What is stored is of the type of the variable. -/
theorem type?_assigned {op : AssignOperator} {c : Binding} {v : Value} (h : (assigned op c v).isFault = false) :
    (assigned op c v).type? = some c.type := by
  unfold assigned at h ⊢
  dsimp only at h ⊢
  split at h
  · rename_i hv
    exact Bool.noConfusion (h.symm.trans hv)
  · split at h
    · rename_i hresult
      exact Bool.noConfusion (h.symm.trans hresult)
    · split at h
      · rename_i hv hresult htype
        rw [if_neg hv, if_neg hresult, if_pos htype, htype]
      · cases h

variable {eval : Expr → Run Value} {op : AssignOperator} {x : String} {e : Expr} {b : Binding} {m m' : Machine}

/-- What there is not cannot be assigned to, whatever the value may be. -/
theorem assignment_of_missing (hx : m.scopes.binding? x = none) :
    assignment eval op x e m = .done (.fault .undefinedVariable) m := by
  unfold assignment
  rw [Run.bind_apply, Run.read_apply, hx]
  rfl

/-- Nor can a constant. -/
theorem assignment_of_constant (hx : m.scopes.binding? x = some b) (hb : b.mutable = false) :
    assignment eval op x e m = .done (.fault .constantAssignment) m := by
  unfold assignment
  rw [Run.bind_apply, Run.read_apply, hx]
  dsimp only
  rw [hb]
  rfl

/-- The value is evaluated, and the assignment goes on with what it comes to. -/
theorem assignment_of_mutable (hx : m.scopes.binding? x = some b) (hb : b.mutable = true) :
    assignment eval op x e m = (eval e >>= fun v => do
      if v.isFault then pure v
      else
        let result := combine op (← read fun m => m.scopes.get x) v
        if result.isFault then pure result
        else if result.type? = some b.type then store x result
        else pure (.fault .wrongType)) m := by
  unfold assignment
  rw [Run.bind_apply, Run.read_apply, hx]
  dsimp only
  rw [if_pos hb]

theorem store_apply {w : Value} {s : Scopes} (hs : m.scopes.update? x w = some s) :
    (store x w : Run Value) m = .done w { m with scopes := s } := by
  have hperform : (Action.update x w).perform m = ({ m with scopes := s }, true) := by
    simp [Action.perform, hs]
  have hact : (act (.update x w) : Run Bool) m = .done true { m with scopes := s } := by
    show Outcome.done ((Action.update x w).perform m).2 ((Action.update x w).perform m).1 = _
    rw [hperform]
  rw [store, Run.bind_apply, hact]
  rfl

/-- The value has come to `v`, and the name stands for the variable `c` then. -/
theorem assignment_of_value {v : Value} {c : Binding} {s : Scopes} (hx : m.scopes.binding? x = some b)
    (hb : b.mutable = true) (hv : eval e m = .done v m') (hc : m'.scopes.binding? x = some c)
    (htype : c.type = b.type) (hs : m'.scopes.update? x (assigned op c v) = some s) :
    assignment eval op x e m = .done (assigned op c v)
      (if (assigned op c v).isFault then m' else { m' with scopes := s }) := by
  have hget : m'.scopes.get x = c.value := by
    rw [Scopes.get, hc]
  rw [assignment_of_mutable hx hb, Run.bind_apply, hv, ← htype]
  unfold assigned at hs ⊢
  dsimp only at hs ⊢
  by_cases hfault : v.isFault = true
  · rw [if_pos hfault, if_pos hfault, if_pos hfault]
    rfl
  · rw [if_neg hfault] at hs ⊢
    rw [if_neg hfault, Run.bind_apply, Run.read_apply, hget]
    dsimp only
    by_cases hresult : (combine op c.value v).isFault = true
    · rw [if_pos hresult, if_pos hresult, if_pos hresult]
      rfl
    · rw [if_neg hresult] at hs ⊢
      rw [if_neg hresult]
      by_cases hfits : (combine op c.value v).type? = some c.type
      · rw [if_pos hfits] at hs ⊢
        rw [if_pos hfits, if_neg hresult, store_apply hs]
      · rw [if_neg hfits, if_neg hfits]
        rfl

/-! ## Assignments as a whole -/

/-- **Assignments are atomic.** If there is no variable of the name, or it is a constant, the assignment comes to
that fault at once: not even time is taken for the value, and the machine is as it was. Otherwise the name stands
for a variable in one of the scopes. If the value raises an error, so does the assignment, on the machine that
the value left. If the value comes to something, the name stands for the variable of the same scope still, with
the same type and mutability, and it could be given any value. Then either the assignment comes to a fault and
the machine is the one that the value left, or it comes to what is stored, which is of the type of the variable,
and the machine is that one save for the value of this variable. -/
theorem assignments_are_atomic (n : Nat) (op : AssignOperator) (x : String) (e : Expr) (line : Nat)
    (m : Machine) :
    match m.scopes.binding? x with
    | none => evaluate (n + 1) (.assign op x e line) m = .done (.fault .undefinedVariable) m
    | some b =>
      if b.mutable then
        ∃ inner f outer, m.scopes.Slot x inner f outer b ∧
          match evaluate n e m with
          | .exhausted => evaluate (n + 1) (.assign op x e line) m = .exhausted
          | .raised err m' => evaluate (n + 1) (.assign op x e line) m = .raised err m'
          | .done v m' =>
            ∃ inner' f' outer' c, m'.scopes.Slot x inner' f' outer' c ∧ inner'.length = inner.length ∧
              c.type = b.type ∧ c.mutable = true ∧ (∀ w, m'.scopes.update? x w ≠ none) ∧
              ∃ w, w = assigned op c v ∧
                (w.isFault = true ∧ evaluate (n + 1) (.assign op x e line) m = .done w m' ∨
                  w.isFault = false ∧ w.type? = some b.type ∧
                    ∃ s, s.frames = inner' ++
                        { f' with bindings := f'.bindings.set x { c with value := w } } :: outer' ∧
                      evaluate (n + 1) (.assign op x e line) m = .done w { m' with scopes := s })
      else evaluate (n + 1) (.assign op x e line) m = .done (.fault .constantAssignment) m := by
  have heval : evaluate (n + 1) (.assign op x e line) m = assignment (evaluate n) op x e m := rfl
  rw [heval]
  split
  · rename_i hx
    exact assignment_of_missing hx
  · rename_i b hx
    split
    · rename_i hb
      obtain ⟨inner, f, outer, hslot⟩ := Scopes.exists_slot hx
      refine ⟨inner, f, outer, hslot, ?_⟩
      have hkeeps := evaluate_keeps n e m
      split
      · rename_i hv
        rw [assignment_of_mutable hx hb, Run.bind_apply, hv]
      · rename_i err m' hv
        rw [assignment_of_mutable hx hb, Run.bind_apply, hv]
      · rename_i v m' hv
        rw [hv] at hkeeps
        -- Of the machine that the value left it is known which scopes and variables it has.
        obtain ⟨inner', f', outer', c, hslot', hlength, hbc⟩ := hslot.of_keeps hkeeps.scopes
        refine ⟨inner', f', outer', c, hslot', hlength, hbc.type, hbc.mutable.trans hb, ?_, _, rfl, ?_⟩
        · intro w hnone
          obtain ⟨s, hs, -⟩ := hslot'.update? w
          exact absurd (hs.symm.trans hnone) (Option.some_ne_none s)
        · obtain ⟨s, hs, hframes⟩ := hslot'.update? (assigned op c v)
          have hresult := assignment_of_value hx hb hv hslot'.binding? hbc.type hs
          by_cases hfault : (assigned op c v).isFault = true
          · rw [if_pos hfault] at hresult
            exact .inl ⟨hfault, hresult⟩
          · rw [if_neg hfault] at hresult
            have hproper := Bool.eq_false_iff.2 hfault
            exact .inr ⟨hproper, hbc.type ▸ type?_assigned hproper, s, hframes, hresult⟩
    · rename_i hb
      exact assignment_of_constant hx (Bool.eq_false_iff.2 hb)

end Machine

end Scriptling
