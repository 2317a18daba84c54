import Scriptling.Proofs.Machine.Exits
import Scriptling.Proofs.Machine.Frames
import Scriptling.Proofs.Machine.Store
import Scriptling.Proofs.Scope.Stacks

/-!
# Scriptling.Proofs.Machine.Declared -- functions are declared once and stay

Looking a function up takes the nearest scope that has its name, and defining one replaces what the current scope
has under the name. Neither is ever seen to matter, because a function is declared only where none of its name is
visible, and visible are the functions of all scopes, those of the callers included.

Which scopes declare a name is read off its stack of functions. What an allowed action does to these stacks is
said once (`Action.Allowed.functions_after`): closing a scope drops what was made there, and a declaration finds
its stack empty. From this no stack ever has two entries (`Legal.declaredOnce`), and an entry stays until its scope
is closed (`Legal.declaresAt`).
-/

set_option autoImplicit false

namespace Scriptling

/-! ## Where functions are declared -/

/-- Among scopes from the inside out, the one with `i` scopes around it has the function under the name. -/
def Frame.DeclaresAt (i : Nat) (x : String) (f : Function) : List Frame → Prop
  | [] => False
  | scope :: outer =>
    outer.length = i ∧ scope.functions.get? x = some f ∨ Frame.DeclaresAt i x f outer

theorem Frame.declaresAt_iff {i : Nat} {x : String} {f : Function} (scopes : List Frame) :
    Frame.DeclaresAt i x f scopes ↔ (i + 1, f) ∈ Stack.ofTables x (scopes.map Frame.functions) := by
  induction scopes with
  | nil => simp [DeclaresAt, Stack.ofTables]
  | cons scope outer ih =>
    rw [DeclaresAt, ih, List.map_cons]
    cases h : scope.functions.get? x with
    | none => simp [Stack.ofTables_of_none h]
    | some g => simp [Stack.ofTables_of_some h, eq_comm]

namespace Scopes

/-- The scope with `i` scopes around it has the function under the name. -/
def DeclaresAt (i : Nat) (x : String) (f : Function) (s : Scopes) : Prop := Frame.DeclaresAt i x f s.frames

/-- No name is declared as a function in two scopes. -/
def DeclaredOnce (s : Scopes) : Prop := ∀ x, (s.nameStacks.functions x).length ≤ 1

variable {s : Scopes} {i : Nat} {x : String} {f : Function}

/-- The functions of a name are the entries of its stack. -/
theorem declaresAt_iff : s.DeclaresAt i x f ↔ (i + 1, f) ∈ s.nameStacks.functions x :=
  Frame.declaresAt_iff s.frames

/-- A name stands for no function if and only if its stack is empty. -/
theorem nameStacks_functions_eq_nil : s.nameStacks.functions x = [] ↔ s.isFunctionDefined x = false := by
  rw [← nameStacks_isFunctionDefined, NameStacks.isFunctionDefined, NameStacks.function?, Stack.top?]
  simp

theorem declaredOnce_initial : initial.DeclaredOnce := fun _ => Nat.zero_le _

/-- A function is not hidden by another. -/
theorem DeclaredOnce.stack (h : s.DeclaredOnce) (hf : s.DeclaresAt i x f) :
    s.nameStacks.functions x = [(i + 1, f)] := by
  have hmem := declaresAt_iff.1 hf
  obtain ⟨e, he⟩ := List.length_eq_one_iff.1 (Nat.le_antisymm (h x) (List.length_pos_of_mem hmem))
  rw [he, List.mem_singleton] at hmem
  rw [he, ← hmem]

theorem DeclaredOnce.function? (h : s.DeclaredOnce) (hf : s.DeclaresAt i x f) :
    s.function? x = some f := by
  rw [← nameStacks_function?, NameStacks.function?, h.stack hf]
  rfl

/-- A name is declared in one scope, and as one function there. -/
theorem DeclaredOnce.eq (h : s.DeclaredOnce) {j : Nat} {g : Function} (hf : s.DeclaresAt i x f)
    (hg : s.DeclaresAt j x g) : i = j ∧ f = g := by
  have hstacks := (h.stack hf).symm.trans (h.stack hg)
  simpa using hstacks

/-- A function that is defined is the one that its scope declares. -/
theorem declaresAt_defineFunction (s : Scopes) (f : Function) :
    (s.defineFunction f).DeclaresAt s.outer.length f.name f := by
  refine .inl ⟨rfl, ?_⟩
  show (s.current.functions.set f.name f).get? f.name = some f
  rw [Table.get?_set, if_pos rfl]

end Scopes

/-! ## One action -/

namespace Action

variable {T : ValueType → Prop} {m : Machine} {a : Action}

/-- All that an allowed action does to the stack of functions of a name. -/
theorem Allowed.functions_after (h : a.Allowed T m) (x : String) :
    (a.after m).scopes.nameStacks.functions x =
      match a with
      | .leave => (m.scopes.nameStacks.functions x).close m.scopes.depth
      | .defineFunction f => if x = f.name then [(m.scopes.depth, f)] else m.scopes.nameStacks.functions x
      | _ => m.scopes.nameStacks.functions x := by
  cases a with
  | leave =>
    -- The globals are not closed, so the stacks do drop their entries.
    have hdepth : m.scopes.nameStacks.depth ≠ 1 := by
      show m.scopes.outer.length + 1 ≠ 1
      have hpos := List.length_pos_of_ne_nil h
      omega
    show m.scopes.leave.nameStacks.functions x = _
    rw [Scopes.nameStacks_leave, NameStacks.leave, if_neg hdepth]
    rfl
  | defineFunction f =>
    have hnil : m.scopes.nameStacks.functions f.name = [] := Scopes.nameStacks_functions_eq_nil.2 h.2
    show (m.scopes.defineFunction f).nameStacks.functions x = _
    rw [Scopes.nameStacks_defineFunction, NameStacks.defineFunction, hnil]
    rfl
  | update y v =>
    have hframes := (Machine.frames_after_update (φ := Frame.functions) (fun _ _ => rfl) y v m).1
    exact congrArg (Stack.ofTables x) hframes
  | load file => rfl
  | enter kind => rfl
  | start result => rfl
  | stop => rfl
  | define y b => rfl
  | pass p v => rfl
  | write text => rfl

/-- Allowed actions declare no name a second time. -/
theorem Allowed.declaredOnce (h : a.Allowed T m) (hm : m.scopes.DeclaredOnce) :
    (a.after m).scopes.DeclaredOnce := by
  intro x
  rw [h.functions_after x]
  split
  · exact (List.length_filter_le ..).trans (hm x)
  · split
    · exact Nat.le_refl 1
    · exact hm x
  · exact hm x

/-- Allowed actions that do not close its scope leave a function where it is declared. -/
theorem Allowed.declaresAt {i : Nat} {x : String} {f : Function} (h : a.Allowed T m)
    (ha : a = .leave → m.scopes.depth ≠ i + 1) (hf : m.scopes.DeclaresAt i x f) :
    (a.after m).scopes.DeclaresAt i x f := by
  rw [Scopes.declaresAt_iff] at hf ⊢
  rw [h.functions_after x]
  cases a with
  | leave =>
    have hdepth := ha rfl
    exact List.mem_filter.2 ⟨hf, by simpa using hdepth.symm⟩
  | defineFunction g =>
    -- The stack of the name that is declared is empty, so it is not the function's.
    have hxg : x ≠ g.name := by
      rintro rfl
      rw [Scopes.nameStacks_functions_eq_nil.2 h.2] at hf
      cases hf
    simpa [hxg] using hf
  | _ => exact hf

end Action

/-! ## All moments -/

section Moments

variable {T : ValueType → Prop} {as : List Action} {m : Machine}

theorem Legal.declaredOnce (h : Legal (Action.Allowed T) as m) (hm : m.scopes.DeclaredOnce) (k : Nat) :
    (moment as m k).scopes.DeclaredOnce :=
  h.invariant (I := fun m => m.scopes.DeclaredOnce) (fun _ _ ha hm' => ha.declaredOnce hm') hm k

/-- A function is there, from any moment at which it is, for as long as its scope is not closed. -/
theorem Legal.declaresAt {i j k : Nat} {x : String} {f : Function} (h : Legal (Action.Allowed T) as m)
    (hjk : j ≤ k) (hf : (moment as m j).scopes.DeclaresAt i x f)
    (hopen : ∀ l, j ≤ l → l < k → as[l]? = some .leave → (moment as m l).scopes.depth ≠ i + 1) :
    (moment as m k).scopes.DeclaresAt i x f := by
  -- On the later moment: the action before it did not close the scope.
  induction hjk with
  | refl => exact hf
  | @step k hjk ih =>
    have hbefore : (moment as m k).scopes.DeclaresAt i x f :=
      ih fun l hjl hlk => hopen l hjl (Nat.lt_succ_of_lt hlk)
    cases ha : as[k]? with
    | none =>
      rw [moment_succ_of_none ha]
      exact hbefore
    | some a =>
      rw [moment_succ ha]
      refine (h.at_moment ha).declaresAt (fun hleave => ?_) hbefore
      exact hopen k hjk (Nat.lt_succ_self k) (by rw [ha, hleave])

end Moments

namespace Machine

/-- Declaring a function under a name that stands for one is a fault, and changes nothing. -/
theorem execute_func_redeclared {m : Machine} {f : Function}
    (h : m.scopes.isFunctionDefined f.name = true) (n : Nat) :
    execute (n + 1) (.func f) m = .raised ⟨m.file, f.line, .functionRedeclared⟩ m := by
  have hdeclare : (declareFunction f : Run Unit) m = .raised ⟨m.file, f.line, .functionRedeclared⟩ m := by
    rw [declareFunction, Run.bind_apply, Run.read_apply]
    show (if m.scopes.isFunctionDefined f.name then _ else _ : Run Unit) m = _
    rw [if_pos h]
    rfl
  show (do declareFunction f; pure .next : Run Flow) m = _
  rw [Run.bind_apply, hdeclare]

/-- **Functions are declared once and stay.** Let programs be run one after another on a fresh machine, each to
its end, to a fault or for as long as there is time. At every moment, of which the last is the machine that the
session leaves, a name is declared as a function in at most one of the scopes. Where a function is declared, it is
there from the next moment on. And as long as the scope that has it is not closed, it has it still, the name
stands for that function whatever scopes have been opened inside it, and to declare the name once more is a fault
that leaves the machine as it is. -/
theorem functions_declared_once_and_kept (n : Nat) (ps : List Program) (out : Output) :
    (∀ m, session n ps (initial out) = .done () m →
      m = sessionMoment n ps out (actions n ps out).length) ∧
    (∀ k i j x f g, (sessionMoment n ps out k).scopes.DeclaresAt i x f →
      (sessionMoment n ps out k).scopes.DeclaresAt j x g → i = j ∧ f = g) ∧
    (∀ k f, (actions n ps out)[k]? = some (.defineFunction f) →
      (sessionMoment n ps out (k + 1)).scopes.DeclaresAt
        (sessionMoment n ps out k).scopes.outer.length f.name f) ∧
    ∀ i j k x f, j ≤ k → (sessionMoment n ps out j).scopes.DeclaresAt i x f →
      (∀ l, j ≤ l → l < k → (actions n ps out)[l]? = some .leave →
        (sessionMoment n ps out l).scopes.depth ≠ i + 1) →
      (sessionMoment n ps out k).scopes.DeclaresAt i x f ∧
      (sessionMoment n ps out k).scopes.function? x = some f ∧
      ∀ time g, g.name = x →
        execute (time + 1) (.func g) (sessionMoment n ps out k) =
          .raised ⟨(sessionMoment n ps out k).file, g.line, .functionRedeclared⟩
            (sessionMoment n ps out k) := by
  have hlegal := (session_meets n ps out).legal
  have honce (k : Nat) : (sessionMoment n ps out k).scopes.DeclaredOnce :=
    hlegal.declaredOnce Scopes.declaredOnce_initial k
  refine ⟨fun m h => session_eq_moment h, ?_, ?_, ?_⟩
  · intro k i j x f g hf hg
    exact (honce k).eq hf hg
  · intro k f hk
    show (moment (actions n ps out) (initial out) (k + 1)).scopes.DeclaresAt _ f.name f
    rw [moment_succ hk]
    exact Scopes.declaresAt_defineFunction _ f
  · intro i j k x f hjk hf hopen
    have hstill : (sessionMoment n ps out k).scopes.DeclaresAt i x f := hlegal.declaresAt hjk hf hopen
    have hfunction := (honce k).function? hstill
    refine ⟨hstill, hfunction, fun time g hg => execute_func_redeclared ?_ time⟩
    rw [hg, Scopes.isFunctionDefined, hfunction]
    rfl

/-- A function without parameters or statements. -/
def nestedFunction : Function := ⟨"g", .void, [], ⟨[], 2⟩, 2⟩

/-- A function that declares another and then calls itself. -/
def nesting : Program := ⟨"nesting", [
  .func ⟨"f", .void, [⟨"n", .int, false, 1⟩],
    ⟨[.func nestedFunction,
      .cond (.binary (.comparison .greater) (.name "n" 3) (.literal (.int 0) 3) 3)
        ⟨[.expr (.call "f" [.binary (.arithmetic .sub) (.name "n" 3) (.literal (.int 1) 3) 3] 3) 3], 3⟩
        .done 3], 1⟩, 1⟩,
  .expr (.call "f" [.literal (.int 1) 5] 5) 5]⟩

/-- The sixth action declares the nested function in the scope of the first call. Four actions later, within the
second call, it is still the one, and declaring it again is a fault. -/
theorem nested_function_is_kept :
    (actions 20 [nesting] (.empty none))[5]? = some (.defineFunction nestedFunction) ∧
    ((actions 20 [nesting] (.empty none)).drop 6).take 4 =
      [.enter .conditional, .start .void, .enter .call, .pass ⟨"n", .int, false, 1⟩ (.int 0)] ∧
    (sessionMoment 20 [nesting] (.empty none) 10).scopes.function? "g" = some nestedFunction ∧
    execute 1 (.func nestedFunction) (sessionMoment 20 [nesting] (.empty none) 10) =
      .raised ⟨"nesting", 2, .functionRedeclared⟩ (sessionMoment 20 [nesting] (.empty none) 10) := by
  have hdeclared : (actions 20 [nesting] (.empty none))[5]? = some (.defineFunction nestedFunction) := by cbv
  have hbetween : ((actions 20 [nesting] (.empty none)).drop 6).take 4 =
      [.enter .conditional, .start .void, .enter .call, .pass ⟨"n", .int, false, 1⟩ (.int 0)] := by
    cbv
  have houter : (sessionMoment 20 [nesting] (.empty none) 5).scopes.outer.length = 1 := by cbv
  have hfile : (sessionMoment 20 [nesting] (.empty none) 10).file = "nesting" := by cbv
  obtain ⟨-, -, hthere, hkept⟩ := functions_declared_once_and_kept 20 [nesting] (.empty none)
  have hfirst := hthere 5 nestedFunction hdeclared
  rw [houter] at hfirst
  obtain ⟨-, hfunction, hagain⟩ := hkept 1 6 10 "g" nestedFunction (by omega) hfirst fun l hl hlk hleave => by
    have hnone : (((actions 20 [nesting] (.empty none)).drop 6).take 4)[l - 6]? = some .leave := by
      rw [List.getElem?_take_of_lt (by omega), List.getElem?_drop, Nat.add_sub_cancel' hl, hleave]
    rw [hbetween] at hnone
    have hmem := List.mem_of_getElem? hnone
    simp at hmem
  have hraised := hagain 0 nestedFunction rfl
  rw [hfile] at hraised
  exact ⟨hdeclared, hbetween, hfunction, hraised⟩

end Machine

end Scriptling
