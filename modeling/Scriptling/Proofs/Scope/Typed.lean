import Scriptling.Proofs.Scope.Keeps

/-!
# Scriptling.Proofs.Scope.Typed -- variables and the types of their values

A variable has no value yet, or one of its declared type: `Scopes.Typed` says so of all variables of a
chain of scopes. `Scopes.Holds` picks out one variable by its name and by the number of scopes around its
scope, and says that it has a value. Each operation on the chain is shown to preserve the two.
-/

set_option autoImplicit false

namespace Scriptling

/-! ## What holds of all variables -/

/-- All variables of a scope satisfy `P`. -/
def Frame.AllVariables (P : Binding → Prop) (f : Frame) : Prop :=
  ∀ x b, f.bindings.get? x = some b → P b

/-- All variables of all scopes satisfy `P`. -/
def Scopes.AllVariables (P : Binding → Prop) (s : Scopes) : Prop := ∀ f ∈ s.frames, f.AllVariables P

section AllVariables

variable {P : Binding → Prop}

theorem Frame.allVariables_empty (kind : ScopeKind) : (Frame.empty kind).AllVariables P := by
  intro x b hb
  cases hb

theorem Frame.AllVariables.set {f : Frame} (hf : f.AllVariables P) {x : String} {b : Binding}
    (hb : P b) : Frame.AllVariables P { f with bindings := f.bindings.set x b } := by
  intro y c hc
  rw [Table.get?_set] at hc
  by_cases hxy : x = y
  · rw [if_pos hxy] at hc
    cases hc
    exact hb
  · rw [if_neg hxy] at hc
    exact hf y c hc

namespace Scopes.AllVariables

variable {s : Scopes}

theorem initial : Scopes.initial.AllVariables P := by
  intro f hf
  rw [List.mem_singleton.1 hf]
  exact Frame.allVariables_empty .plain

theorem enter (h : s.AllVariables P) (kind : ScopeKind) : (s.enter kind).AllVariables P := by
  intro f hf
  rcases List.mem_cons.1 hf with rfl | hf
  · exact Frame.allVariables_empty kind
  · exact h f hf

theorem leave (h : s.AllVariables P) : s.leave.AllVariables P := by
  rcases s with ⟨current, outer⟩
  cases outer with
  | nil => exact h
  | cons f fs =>
    intro g hg
    exact h g (List.mem_cons_of_mem current hg)

theorem define (h : s.AllVariables P) (x : String) {b : Binding} (hb : P b) :
    (s.define x b).AllVariables P := by
  intro f hf
  rcases List.mem_cons.1 hf with rfl | hf
  · exact (h s.current List.mem_cons_self).set hb
  · exact h f (List.mem_cons_of_mem _ hf)

theorem defineFunction (h : s.AllVariables P) (f : Function) : (s.defineFunction f).AllVariables P := by
  intro g hg
  rcases List.mem_cons.1 hg with rfl | hg
  · exact h s.current List.mem_cons_self
  · exact h g (List.mem_cons_of_mem _ hg)

/-- The variable that a name stands for is one of them. -/
theorem binding? (h : s.AllVariables P) {x : String} {b : Binding} (hb : s.binding? x = some b) :
    P b := by
  obtain ⟨inner, f, outer, hs, hf, -⟩ := binding?_eq_some hb
  have hmem : f ∈ s.frames := by
    rw [hs]
    exact List.mem_append_right inner List.mem_cons_self
  exact h f hmem x b hf

theorem update? (h : s.AllVariables P) {x : String} {v : Value} {t : Scopes}
    (hv : ∀ b, s.binding? x = some b → P { b with value := v }) (ht : s.update? x v = some t) :
    t.AllVariables P := by
  cases hb : s.binding? x with
  | none =>
    rw [update?_eq_none v hb] at ht
    cases ht
  | some b =>
    obtain ⟨inner, f, outer, t', hs, -, -, ht', hframes⟩ := update?_eq_some v hb
    have htt : t' = t := Option.some.inj (ht'.symm.trans ht)
    have hall : ∀ g ∈ inner ++ f :: outer, g.AllVariables P := by
      rw [← hs]
      exact h
    rw [List.forall_mem_append, List.forall_mem_cons] at hall
    unfold Scopes.AllVariables
    rw [← htt, hframes, List.forall_mem_append, List.forall_mem_cons]
    exact ⟨hall.1, hall.2.1.set (hv b hb), hall.2.2⟩

end Scopes.AllVariables

end AllVariables

/-! ## Typed variables -/

/-- The variable is of a type with values, and it has none yet or one of its type. -/
structure Binding.Typed (b : Binding) : Prop where
  type : b.type ≠ .void
  value : b.value = .void ∨ b.value.type? = some b.type

/-- A fault is never the value of a typed variable. -/
theorem Binding.Typed.not_fault {b : Binding} (h : b.Typed) : b.value.isFault = false := by
  rcases h.value with hvoid | htype
  · rw [hvoid]
    rfl
  · by_contra hfault
    have hnone := Value.type?_eq_none_iff.2 (Bool.not_eq_false _ ▸ hfault)
    rw [htype] at hnone
    cases hnone

/-- All variables of a scope are typed. -/
def Frame.Typed (f : Frame) : Prop := ∀ x b, f.bindings.get? x = some b → b.Typed

/-- All variables of all scopes are typed. -/
def Scopes.Typed (s : Scopes) : Prop := ∀ f ∈ s.frames, f.Typed

namespace Scopes.Typed

variable {s : Scopes}

theorem initial : Scopes.initial.Typed := AllVariables.initial (P := Binding.Typed)

theorem enter (h : s.Typed) (kind : ScopeKind) : (s.enter kind).Typed :=
  AllVariables.enter (P := Binding.Typed) h kind

theorem leave (h : s.Typed) : s.leave.Typed := AllVariables.leave (P := Binding.Typed) h

theorem define (h : s.Typed) (x : String) {b : Binding} (hb : b.Typed) : (s.define x b).Typed :=
  AllVariables.define (P := Binding.Typed) h x hb

theorem defineFunction (h : s.Typed) (f : Function) : (s.defineFunction f).Typed :=
  AllVariables.defineFunction (P := Binding.Typed) h f

/-- The variable that a name stands for is typed. -/
theorem binding? (h : s.Typed) {x : String} {b : Binding} (hb : s.binding? x = some b) :
    b.Typed :=
  AllVariables.binding? (P := Binding.Typed) h hb

theorem update? (h : s.Typed) {x : String} {b : Binding} {v : Value} {t : Scopes}
    (hb : s.binding? x = some b) (hv : v.type? = some b.type) (ht : s.update? x v = some t) :
    t.Typed := by
  refine AllVariables.update? (P := Binding.Typed) h (fun c hc => ?_) ht
  cases Option.some.inj (hb.symm.trans hc)
  exact ⟨(h.binding? hb).type, .inr hv⟩

end Scopes.Typed

/-! ## A variable that has a value -/

/-- The scope has a variable of the name, with a value. -/
def Frame.Holds (x : String) (f : Frame) : Prop :=
  ∃ b, f.bindings.get? x = some b ∧ b.value ≠ .void

/-- Among scopes from the inside out, the one with `i` scopes around it has a variable of the name, with a
value. -/
def Frame.HoldsAt (i : Nat) (x : String) : List Frame → Prop
  | [] => False
  | f :: fs => fs.length = i ∧ f.Holds x ∨ Frame.HoldsAt i x fs

/-- The scope with `i` scopes around it has a variable of the name, with a value. -/
def Scopes.Holds (i : Nat) (x : String) (s : Scopes) : Prop := Frame.HoldsAt i x s.frames

theorem Frame.Holds.set {f : Frame} {x y : String} {b : Binding} (h : f.Holds x)
    (hb : y = x → b.value ≠ .void) :
    Frame.Holds x { f with bindings := f.bindings.set y b } := by
  obtain ⟨c, hc, hvalue⟩ := h
  by_cases hyx : y = x
  · refine ⟨b, ?_, hb hyx⟩
    rw [Table.get?_set, if_pos hyx]
  · refine ⟨c, ?_, hvalue⟩
    rw [Table.get?_set, if_neg hyx]
    exact hc

/-- Changing one scope in the midst of others, so that the variable still has a value if it is there. -/
theorem Frame.HoldsAt.set_one {i : Nat} {x : String} {f g : Frame} {inner outer : List Frame}
    (h : Frame.HoldsAt i x (inner ++ f :: outer)) (hfg : f.Holds x → g.Holds x) :
    Frame.HoldsAt i x (inner ++ g :: outer) := by
  induction inner with
  | nil =>
    rcases h with ⟨hi, hf⟩ | h
    · exact .inl ⟨hi, hfg hf⟩
    · exact .inr h
  | cons c inner ih =>
    rcases h with ⟨hi, hc⟩ | h
    · refine .inl ⟨?_, hc⟩
      simpa using hi
    · exact .inr (ih h)

namespace Scopes.Holds

variable {i : Nat} {x : String} {s : Scopes}

theorem enter (h : s.Holds i x) (kind : ScopeKind) : (s.enter kind).Holds i x := .inr h

/-- Closing a scope does not touch the variables of those around it. -/
theorem leave (h : s.Holds i x) (hs : s.outer ≠ []) (hi : s.depth ≠ i + 1) : s.leave.Holds i x := by
  rcases s with ⟨current, outer⟩
  cases outer with
  | nil => exact absurd rfl hs
  | cons f fs =>
    rcases h with ⟨hlength, -⟩ | h
    · exact absurd (congrArg Nat.succ hlength) hi
    · exact h

/-- Defining a variable touches no other, and none of its name in the scopes around. -/
theorem define (h : s.Holds i x) {y : String} (b : Binding) (hy : s.depth = i + 1 → y ≠ x) :
    (s.define y b).Holds i x := by
  -- Only if the variable is one of the current scope can the new one be in its place.
  rcases h with ⟨hi, hx⟩ | h
  · have hyx : y ≠ x := hy (congrArg Nat.succ hi)
    exact .inl ⟨hi, hx.set fun heq => absurd heq hyx⟩
  · exact .inr h

theorem defineFunction (h : s.Holds i x) (f : Function) : (s.defineFunction f).Holds i x := h

/-- A new value in the place of one is a value, too. -/
theorem update? (h : s.Holds i x) {y : String} {b : Binding} {v : Value} {t : Scopes}
    (hb : s.binding? y = some b) (hv : v ≠ .void) (ht : s.update? y v = some t) : t.Holds i x := by
  obtain ⟨inner, f, outer, t', hs, hf, -, ht', hframes⟩ := update?_eq_some v hb
  have htt : t' = t := Option.some.inj (ht'.symm.trans ht)
  unfold Scopes.Holds at h ⊢
  rw [hs] at h
  rw [← htt, hframes]
  exact h.set_one fun hx => hx.set fun _ => hv

/-- A variable defined with a value has one. -/
theorem of_define (s : Scopes) (x : String) {b : Binding} (hb : b.value ≠ .void) :
    (s.define x b).Holds s.outer.length x := by
  refine .inl ⟨rfl, b, ?_, hb⟩
  show (s.current.bindings.set x b).get? x = some b
  rw [Table.get?_set, if_pos rfl]

end Scopes.Holds

end Scriptling
