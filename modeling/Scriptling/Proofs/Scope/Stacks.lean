import Scriptling.Machine.Evaluate
import Scriptling.Proofs.Scope.Keeps

/-!
# Scriptling.Proofs.Scope.Stacks -- a chain of scopes as one stack for each name

A chain of scopes is searched from the inside out for each name anew. The same answers come from a simpler
store, which knows of no scopes: how deep the current one is, and for each name a stack of entries with the
depths they were made at (`NameStacks`). Shadowing is then pushing, coming to light again is popping, and what a
name stands for is on top of its stack.

`Scopes.nameStacks` reads the stacks off a chain. Each step that a chain can take is matched by the same step of
the stacks (`nameStacks_step`), and so is each run of steps. The main result is `scopes_are_stacks_by_name`.
-/

set_option autoImplicit false

namespace Scriptling

/-! ## Stacks -/

/-- The entries of one name, each with the depth it was made at, the latest first. -/
abbrev Stack (α : Type) := List (Nat × α)

namespace Stack

variable {α : Type}

/-- The entry on top. -/
def top? (es : Stack α) : Option α := es.head?.map Prod.snd

/-- Whether the entry on top was made at the depth. -/
def isAt (depth : Nat) (es : Stack α) : Bool := es.head?.any fun e => e.1 = depth

/-- Makes an entry at the depth: in place of the one on top if that was made there too, and else on top of it. -/
def define (depth : Nat) (a : α) : Stack α → Stack α
  | [] => [(depth, a)]
  | (d, b) :: es => if d = depth then (depth, a) :: es else (depth, a) :: (d, b) :: es

/-- Drops the entries that were made at the depth. -/
def close (depth : Nat) (es : Stack α) : Stack α := es.filter fun e => e.1 ≠ depth

/-- No entry was made deeper than that. -/
def Within (depth : Nat) (es : Stack α) : Prop := ∀ e ∈ es, e.1 ≤ depth

/-- An entry at a new depth goes on top. -/
theorem define_of_within {depth : Nat} {es : Stack α} (h : es.Within depth) (a : α) :
    es.define (depth + 1) a = (depth + 1, a) :: es := by
  rcases es with _ | ⟨⟨d, b⟩, es⟩
  · rfl
  · have hd : d ≤ depth := h (d, b) List.mem_cons_self
    have hne : d ≠ depth + 1 := by omega
    simp [define, hne]

/-- At a depth that was not reached there is nothing to drop. -/
theorem close_of_within {depth : Nat} {es : Stack α} (h : es.Within depth) :
    es.close (depth + 1) = es := by
  refine List.filter_eq_self.2 fun e he => ?_
  have hd := h e he
  have hne : e.1 ≠ depth + 1 := by omega
  simp [hne]

theorem isAt_of_within {depth : Nat} {es : Stack α} (h : es.Within depth) :
    es.isAt (depth + 1) = false := by
  rcases es with _ | ⟨⟨d, b⟩, es⟩
  · rfl
  · have hd : d ≤ depth := h (d, b) List.mem_cons_self
    have hne : d ≠ depth + 1 := by omega
    simp [isAt, hne]

/-! ### The stack of a name -/

/-- The stack of a name in tables that lie inside one another, from the inside out. -/
def ofTables (x : String) : List (Table α) → Stack α
  | [] => []
  | t :: ts =>
    match t.get? x with
    | some a => (ts.length + 1, a) :: ofTables x ts
    | none => ofTables x ts

variable {x y : String} {a : α} {t : Table α} {ts : List (Table α)}

theorem ofTables_of_some (h : t.get? x = some a) :
    ofTables x (t :: ts) = (ts.length + 1, a) :: ofTables x ts := by
  simp [ofTables, h]

theorem ofTables_of_none (h : t.get? x = none) : ofTables x (t :: ts) = ofTables x ts := by
  simp [ofTables, h]

theorem within_ofTables (x : String) (ts : List (Table α)) : (ofTables x ts).Within ts.length := by
  induction ts with
  | nil => simp [ofTables, Within]
  | cons t ts ih =>
    intro e he
    rw [List.length_cons]
    cases h : t.get? x with
    | none =>
      rw [ofTables_of_none h] at he
      exact Nat.le_succ_of_le (ih e he)
    | some a =>
      rw [ofTables_of_some h] at he
      rcases List.mem_cons.1 he with rfl | he
      · exact Nat.le_refl _
      · exact Nat.le_succ_of_le (ih e he)

/-- On top of the stack is what the innermost table with the name has. -/
theorem top?_ofTables (x : String) (ts : List (Table α)) :
    (ofTables x ts).top? = ts.findSome? fun t => t.get? x := by
  induction ts with
  | nil => rfl
  | cons t ts ih =>
    cases h : t.get? x with
    | none => simp [ofTables_of_none h, h, ih]
    | some a => simp [ofTables_of_some h, h, top?]

theorem isAt_ofTables (x : String) (t : Table α) (ts : List (Table α)) :
    (ofTables x (t :: ts)).isAt (ts.length + 1) = t.has x := by
  cases h : t.get? x with
  | none => simp [ofTables_of_none h, isAt_of_within (within_ofTables x ts), Table.has, h]
  | some a => simp [ofTables_of_some h, isAt, Table.has, h]

/-- Setting a name in the innermost table makes an entry on its stack and leaves the other stacks alone. -/
theorem ofTables_set (x : String) (a : α) (t : Table α) (ts : List (Table α)) (y : String) :
    ofTables y (t.set x a :: ts) =
      if y = x then (ofTables y (t :: ts)).define (ts.length + 1) a else ofTables y (t :: ts) := by
  by_cases hyx : y = x
  · subst hyx
    have hset : (t.set y a).get? y = some a := by rw [Table.get?_set, if_pos rfl]
    have hwithin := within_ofTables y ts
    rw [if_pos rfl, ofTables_of_some hset]
    cases h : t.get? y with
    | none => rw [ofTables_of_none h, define_of_within hwithin]
    | some b => simp [ofTables_of_some h, define]
  · have hset : (t.set x a).get? y = t.get? y := by rw [Table.get?_set, if_neg (Ne.symm hyx)]
    rw [if_neg hyx, ofTables, ofTables, hset]

/-- Tables without the name make no entries on its stack. -/
theorem ofTables_append_of_none {inner : List (Table α)} (h : ∀ t ∈ inner, t.get? x = none)
    (ts : List (Table α)) : ofTables x (inner ++ ts) = ofTables x ts := by
  induction inner with
  | nil => rfl
  | cons t inner ih =>
    rw [List.forall_mem_cons] at h
    rw [List.cons_append, ofTables_of_none h.1, ih h.2]

/-- The stack of a name depends on nothing but what the tables have for it. -/
theorem ofTables_congr {ts' : List (Table α)} (h : ts.map (Table.get? x) = ts'.map (Table.get? x)) :
    ofTables x ts = ofTables x ts' := by
  induction ts generalizing ts' with
  | nil => rw [List.map_eq_nil_iff.1 h.symm]
  | cons t ts ih =>
    obtain ⟨t', ts'', rfl, ht, hts⟩ := List.map_eq_cons_iff.1 h.symm
    have hlength : ts''.length = ts.length := by simpa using congrArg List.length hts
    rw [ofTables, ofTables, ht, hlength, ih hts.symm]

/-- Setting a name in the innermost table that has it rewrites the top of its stack and leaves the other stacks
alone. -/
theorem ofTables_rewrite {inner : List (Table α)} (hinner : ∀ t ∈ inner, t.get? x = none)
    (ht : t.get? x = some a) (b : α) (outer : List (Table α)) (y : String) :
    ofTables x (inner ++ t :: outer) = (outer.length + 1, a) :: ofTables x outer ∧
    ofTables y (inner ++ t.set x b :: outer) =
      if y = x then (outer.length + 1, b) :: ofTables x outer
      else ofTables y (inner ++ t :: outer) := by
  refine ⟨by rw [ofTables_append_of_none hinner, ofTables_of_some ht], ?_⟩
  by_cases hyx : y = x
  · subst hyx
    have hset : (t.set y b).get? y = some b := by rw [Table.get?_set, if_pos rfl]
    rw [if_pos rfl, ofTables_append_of_none hinner, ofTables_of_some hset]
  · rw [if_neg hyx]
    exact ofTables_congr (by simp [Table.get?_set, Ne.symm hyx])

/-- Without the innermost table, the entries made at its depth are gone. -/
theorem close_ofTables (x : String) (t : Table α) (ts : List (Table α)) :
    (ofTables x (t :: ts)).close (ts.length + 1) = ofTables x ts := by
  have hclosed := close_of_within (within_ofTables x ts)
  cases h : t.get? x with
  | none => rw [ofTables_of_none h, hclosed]
  | some a =>
    rw [ofTables_of_some h]
    simpa [close] using hclosed

end Stack

/-! ## Stores that keep a stack for each name -/

/-- How deep the current scope is, and the stacks of the names of variables and of functions. -/
structure NameStacks where
  depth : Nat
  bindings : String → Stack Binding
  functions : String → Stack Function

namespace NameStacks

/-- The globals alone, none of them defined. -/
def initial : NameStacks := ⟨1, fun _ => [], fun _ => []⟩

/-- Goes one scope deeper. -/
def enter (s : NameStacks) : NameStacks := { s with depth := s.depth + 1 }

/-- Drops what was made at the current depth, unless that is the depth of the globals. -/
def leave (s : NameStacks) : NameStacks :=
  if s.depth = 1 then s
  else ⟨s.depth - 1, fun x => (s.bindings x).close s.depth, fun x => (s.functions x).close s.depth⟩

/-- Defines a variable at the current depth. -/
def define (x : String) (b : Binding) (s : NameStacks) : NameStacks :=
  { s with bindings := fun y => if y = x then (s.bindings x).define s.depth b else s.bindings y }

/-- Gives the variable on top a new value, of which neither its type nor its mutability changes. -/
def update? (x : String) (v : Value) (s : NameStacks) : Option NameStacks :=
  match s.bindings x with
  | [] => none
  | (d, b) :: es =>
    some { s with bindings := fun y => if y = x then (d, { b with value := v }) :: es else s.bindings y }

/-- Defines a function at the current depth, under its own name. -/
def defineFunction (f : Function) (s : NameStacks) : NameStacks :=
  { s with
    functions := fun y => if y = f.name then (s.functions f.name).define s.depth f else s.functions y }

/-- The variable a name stands for. -/
def binding? (x : String) (s : NameStacks) : Option Binding := (s.bindings x).top?

/-- The value of a variable. -/
def get (x : String) (s : NameStacks) : Value :=
  match s.binding? x with
  | some b => b.value
  | none => .fault .undefinedVariable

/-- Whether a name stands for a variable. -/
def isDefined (x : String) (s : NameStacks) : Bool := (s.binding? x).isSome

/-- Whether a variable of the name was made at the current depth. -/
def isDefinedHere (x : String) (s : NameStacks) : Bool := (s.bindings x).isAt s.depth

/-- The function a name stands for. -/
def function? (x : String) (s : NameStacks) : Option Function := (s.functions x).top?

/-- Whether a name stands for a function. -/
def isFunctionDefined (x : String) (s : NameStacks) : Bool := (s.function? x).isSome

end NameStacks

/-! ## Steps -/

/-- What can be done to a chain of scopes. -/
inductive ScopeStep where
  | enter (kind : ScopeKind)
  | leave
  | define (x : String) (b : Binding)
  | update (x : String) (v : Value)
  | defineFunction (f : Function)

/-- The scopes after a step. An update that finds no variable changes nothing. -/
def Scopes.step (s : Scopes) : ScopeStep → Scopes
  | .enter kind => s.enter kind
  | .leave => s.leave
  | .define x b => s.define x b
  | .update x v => (s.update? x v).getD s
  | .defineFunction f => s.defineFunction f

/-- The stacks after a step. An update that finds an empty stack changes nothing. -/
def NameStacks.step (s : NameStacks) : ScopeStep → NameStacks
  | .enter _ => s.enter
  | .leave => s.leave
  | .define x b => s.define x b
  | .update x v => (s.update? x v).getD s
  | .defineFunction f => s.defineFunction f

/-! ## The stacks of a chain -/

namespace Scopes

/-- The stacks that the names have in a chain of scopes. -/
def nameStacks (s : Scopes) : NameStacks where
  depth := s.depth
  bindings x := Stack.ofTables x (s.frames.map Frame.bindings)
  functions x := Stack.ofTables x (s.frames.map Frame.functions)

variable (s : Scopes) (x : String)

/-! ### What the stacks answer -/

theorem nameStacks_binding? : s.nameStacks.binding? x = s.binding? x := by
  show Stack.top? (Stack.ofTables x (s.frames.map Frame.bindings)) = _
  rw [Stack.top?_ofTables, List.findSome?_map]
  rfl

theorem nameStacks_get : s.nameStacks.get x = s.get x := by
  rw [NameStacks.get, nameStacks_binding?]
  rfl

theorem nameStacks_isDefined : s.nameStacks.isDefined x = s.isDefined x := by
  rw [NameStacks.isDefined, nameStacks_binding?, isDefined]

theorem nameStacks_isDefinedHere : s.nameStacks.isDefinedHere x = s.isDefinedHere x := by
  have h := Stack.isAt_ofTables x s.current.bindings (s.outer.map Frame.bindings)
  rw [List.length_map] at h
  exact h

theorem nameStacks_function? : s.nameStacks.function? x = s.function? x := by
  show Stack.top? (Stack.ofTables x (s.frames.map Frame.functions)) = _
  rw [Stack.top?_ofTables, List.findSome?_map]
  rfl

theorem nameStacks_isFunctionDefined : s.nameStacks.isFunctionDefined x = s.isFunctionDefined x := by
  rw [NameStacks.isFunctionDefined, nameStacks_function?, isFunctionDefined]

/-! ### What happens to the stacks -/

/-- Setting a name in the table of the current scope, seen on the stacks. -/
theorem ofTables_frames {α : Type} (table : Frame → Table α) (a : α) (y : String) :
    Stack.ofTables y ((table s.current).set x a :: s.outer.map table) =
      if y = x then (Stack.ofTables x (s.frames.map table)).define s.depth a
      else Stack.ofTables y (s.frames.map table) := by
  have h := Stack.ofTables_set x a (table s.current) (s.outer.map table) y
  rw [List.length_map] at h
  rw [h]
  by_cases hyx : y = x
  · subst hyx
    rfl
  · rw [if_neg hyx, if_neg hyx]
    rfl

theorem nameStacks_define (b : Binding) : (s.define x b).nameStacks = s.nameStacks.define x b := by
  show NameStacks.mk _ _ _ = NameStacks.mk _ _ _
  congr 1
  exact funext fun y => s.ofTables_frames x Frame.bindings b y

theorem nameStacks_defineFunction (f : Function) :
    (s.defineFunction f).nameStacks = s.nameStacks.defineFunction f := by
  show NameStacks.mk _ _ _ = NameStacks.mk _ _ _
  congr 1
  exact funext fun y => s.ofTables_frames f.name Frame.functions f y

/-- A name stands for nothing if and only if its stack is empty. -/
theorem nameStacks_bindings_eq_nil : s.nameStacks.bindings x = [] ↔ s.binding? x = none := by
  rw [← nameStacks_binding?, NameStacks.binding?, Stack.top?, Option.map_eq_none_iff, List.head?_eq_none_iff]

/-- An update rewrites the top of one stack, and fails where that is empty. -/
theorem nameStacks_update? (v : Value) : (s.update? x v).map nameStacks = s.nameStacks.update? x v := by
  cases hx : s.binding? x with
  | none =>
    rw [update?_eq_none v hx, NameStacks.update?, (s.nameStacks_bindings_eq_nil x).2 hx]
    rfl
  | some b =>
    obtain ⟨inner, f, outer, t, hs, hf, hinner, ht, hframes⟩ := update?_eq_some v hx
    have hrewrite := Stack.ofTables_rewrite (List.forall_mem_map.2 hinner) hf { b with value := v }
      (outer.map Frame.bindings)
    have htables : s.frames.map Frame.bindings =
        inner.map Frame.bindings ++ f.bindings :: outer.map Frame.bindings := by
      rw [hs, List.map_append, List.map_cons]
    have hdepth : t.depth = s.depth := by simp [depth, hframes, hs]
    have htop : s.nameStacks.bindings x =
        (outer.length + 1, b) :: Stack.ofTables x (outer.map Frame.bindings) := by
      rw [← List.length_map Frame.bindings]
      exact (congrArg (Stack.ofTables x) htables).trans (hrewrite x).1
    have hbindings (y : String) : t.nameStacks.bindings y =
        if y = x then (outer.length + 1, { b with value := v }) ::
          Stack.ofTables x (outer.map Frame.bindings)
        else s.nameStacks.bindings y := by
      show Stack.ofTables y (t.frames.map Frame.bindings) = if y = x then _ else
        Stack.ofTables y (s.frames.map Frame.bindings)
      rw [hframes, htables, List.map_append, List.map_cons, ← List.length_map Frame.bindings]
      exact (hrewrite y).2
    have hfunctions : t.nameStacks.functions = s.nameStacks.functions := by
      funext y
      show Stack.ofTables y (t.frames.map Frame.functions) = Stack.ofTables y (s.frames.map Frame.functions)
      rw [map_update? (fun _ _ => rfl) ht]
    rw [ht, NameStacks.update?, htop]
    show some (NameStacks.mk t.depth t.nameStacks.bindings t.nameStacks.functions) = some (NameStacks.mk _ _ _)
    rw [hdepth, funext hbindings, hfunctions]
    rfl

theorem nameStacks_leave : s.leave.nameStacks = s.nameStacks.leave := by
  rcases s with ⟨current, _ | ⟨f, fs⟩⟩
  · rfl
  · have hdepth : (⟨current, f :: fs⟩ : Scopes).nameStacks.depth ≠ 1 := by
      show (fs.length + 1) + 1 ≠ 1
      omega
    have hclose {α : Type} (table : Frame → Table α) (y : String) :
        Stack.ofTables y ((f :: fs).map table) =
          (Stack.ofTables y ((current :: f :: fs).map table)).close ((f :: fs).length + 1) := by
      have h := Stack.close_ofTables y (table current) ((f :: fs).map table)
      rw [List.length_map] at h
      exact h.symm
    rw [NameStacks.leave, if_neg hdepth]
    show NameStacks.mk _ _ _ = NameStacks.mk _ _ _
    congr 1
    · exact funext fun y => hclose Frame.bindings y
    · exact funext fun y => hclose Frame.functions y

/-! ## Runs of steps -/

/-- Where there is no variable, storing a value comes to a fault and leaves the machine alone. -/
theorem store_of_update?_eq_none {x : String} {v : Value} {m : Machine}
    (h : m.scopes.update? x v = none) :
    (Machine.store x v : Run Value) m = .done (.fault .undefinedVariable) m := by
  have hperform : (Action.update x v).perform m = (m, false) := by simp [Action.perform, h]
  show (if ((Action.update x v).perform m).2 then pure v else pure (.fault .undefinedVariable) : Run Value)
    ((Action.update x v).perform m).1 = _
  rw [hperform]
  rfl

/-- A chain takes the same step as its stacks. -/
theorem nameStacks_step (a : ScopeStep) : (s.step a).nameStacks = s.nameStacks.step a := by
  cases a with
  | enter kind => rfl
  | leave => exact s.nameStacks_leave
  | define x b => exact s.nameStacks_define x b
  | defineFunction f => exact s.nameStacks_defineFunction f
  | update x v =>
    rw [step, NameStacks.step, ← nameStacks_update?]
    cases s.update? x v <;> rfl

theorem nameStacks_foldl (steps : List ScopeStep) (s : Scopes) :
    (steps.foldl step s).nameStacks = steps.foldl NameStacks.step s.nameStacks := by
  induction steps generalizing s with
  | nil => rfl
  | cons a steps ih => rw [List.foldl_cons, List.foldl_cons, ih, nameStacks_step]

/-- **Scopes are stacks, one for each name.** Let any steps be taken, one after another, from the globals alone:
scopes opened and closed, variables and functions defined, variables updated. Then the chain of scopes answers
every question like the store that keeps, with the depth of the current scope, one stack for each name: how deep
the current scope is, what a name stands for, and whether the current scope has it. An update succeeds on both or
on neither; where it does not succeed, it leaves the chain and the stacks as they are, and an assignment comes to
the fault that there is no such variable, on the machine as it was. -/
theorem scopes_are_stacks_by_name (steps : List ScopeStep) :
    let s := steps.foldl step initial
    let t := steps.foldl NameStacks.step .initial
    s.depth = t.depth ∧
    (∀ x, s.binding? x = t.binding? x ∧ s.get x = t.get x ∧ s.isDefined x = t.isDefined x ∧
      s.isDefinedHere x = t.isDefinedHere x ∧ s.function? x = t.function? x ∧
      s.isFunctionDefined x = t.isFunctionDefined x) ∧
    ∀ x v, (s.update? x v).isSome = (t.update? x v).isSome ∧
      (t.bindings x = [] →
        s.step (.update x v) = s ∧ t.step (.update x v) = t ∧
        ∀ m : Machine, m.scopes = s →
          (Machine.store x v : Run Value) m = .done (.fault .undefinedVariable) m) := by
  intro s t
  have hstacks : s.nameStacks = t := nameStacks_foldl steps initial
  refine ⟨congrArg NameStacks.depth hstacks, fun x => ?_, fun x v => ⟨?_, fun hnil => ?_⟩⟩
  · rw [← hstacks]
    exact ⟨(s.nameStacks_binding? x).symm, (s.nameStacks_get x).symm, (s.nameStacks_isDefined x).symm,
      (s.nameStacks_isDefinedHere x).symm, (s.nameStacks_function? x).symm,
      (s.nameStacks_isFunctionDefined x).symm⟩
  · rw [← hstacks, ← nameStacks_update?, Option.isSome_map]
  · rw [← hstacks] at hnil
    have hnone : s.update? x v = none := update?_eq_none v ((s.nameStacks_bindings_eq_nil x).1 hnil)
    have hstep : s.step (.update x v) = s := by
      rw [step, hnone]
      rfl
    refine ⟨hstep, ?_, fun m hm => store_of_update?_eq_none (by rw [hm, hnone])⟩
    rw [← hstacks, ← nameStacks_step, hstep]

/-- A variable is defined, updated from within a loop, and shadowed there by a constant until the loop is left. -/
def shadowing : List ScopeStep :=
  [.define "x" ⟨.int 1, .int, true⟩, .enter .loop, .update "x" (.int 5),
    .define "x" ⟨.bool true, .bool, false⟩, .leave]

/-- What was shadowed comes to light with the value that it was given, and no other name stands for anything. -/
theorem shadowed_value_comes_to_light :
    (shadowing.foldl step initial).get "x" = .int 5 ∧
    (shadowing.foldl NameStacks.step .initial).bindings "y" = [] ∧
    (shadowing.foldl step initial).step (.update "y" .void) = shadowing.foldl step initial := by
  obtain ⟨-, hanswers, hupdate⟩ := scopes_are_stacks_by_name shadowing
  have hnil : (shadowing.foldl NameStacks.step .initial).bindings "y" = [] := by decide
  exact ⟨(hanswers "x").2.1.trans (by decide), hnil, ((hupdate "y" .void).2 hnil).1⟩

end Scopes

end Scriptling
