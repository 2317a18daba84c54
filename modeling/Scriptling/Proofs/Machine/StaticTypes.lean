import Scriptling.Proofs.Grammar.Soundness
import Scriptling.Proofs.Machine.Store
import Scriptling.Proofs.Value.Types

/-!
# Scriptling.Proofs.Machine.StaticTypes -- the type of an expression is known before it is evaluated

The type of an expression can be told from its tree, from the types of the variables in scope and from what
the functions in scope promise. Code that is called on the way may assign to variables and declare others in
scopes of its own, but it leaves the variables and functions in scope as they are declared, so the type is
the same all the time. The main result is `expressions_have_their_types`.
-/

set_option autoImplicit false

namespace Scriptling

/-! ## Types of expressions -/

namespace Expr

/-- The type of an expression, by the types of variables and those that functions promise. It has none if
it names something unknown, or applies an operator to types it has no meaning for. -/
def type? (varType resultType : String → Option ValueType) : Expr → Option ValueType
  | literal v _ => some v.type
  | name x _ => varType x
  | group e _ => e.type? varType resultType
  | call f _ _ => resultType f
  | cast t _ _ => some t
  | unary _ e _ => e.type? varType resultType
  | binary op l r _ =>
    match l.type? varType resultType, r.type? varType resultType with
    | some s, some t => op.type? s t
    | _, _ => none
  | assign _ x _ _ => varType x

/-- An expression without the parentheses around it. -/
def bare : Expr → Expr
  | group e _ => e.bare
  | e => e

/-- The expression is a name or a call, in parentheses or not. -/
def MayBeVoid (e : Expr) : Prop :=
  (∃ x line, e.bare = name x line) ∨ ∃ f args line, e.bare = call f args line

end Expr

namespace Scopes

/-- The declared type of the variable a name stands for. -/
def variableType? (s : Scopes) (x : String) : Option ValueType := (s.binding? x).map Binding.type

/-- The type that the function a name stands for promises. -/
def resultType? (s : Scopes) (f : String) : Option ValueType := (s.function? f).map Function.result

/-- The type of an expression in these scopes. -/
def typeOf? (s : Scopes) (e : Expr) : Option ValueType := e.type? s.variableType? s.resultType?

/-! ## Kept scopes give the same types -/

/-- What is found the same in each of two lists of scopes is found the same in the lists. -/
theorem findSome?_keepAll {α : Type} {φ : Frame → Option α} (hφ : ∀ f g, f.Keeps g → φ g = φ f)
    {fs gs : List Frame} (h : Frame.KeepAll fs gs) : gs.findSome? φ = fs.findSome? φ := by
  induction h with
  | nil => rfl
  | cons hfg _ ih => rw [List.findSome?_cons, List.findSome?_cons, hφ _ _ hfg, ih]

variable {s t : Scopes}

theorem Keeps.variableType? (h : s.Keeps t) : t.variableType? = s.variableType? := by
  funext x
  unfold Scopes.variableType? Scopes.binding?
  rw [List.map_findSome?, List.map_findSome?]
  refine findSome?_keepAll (fun f g hfg => ?_) (keeps_iff.1 h)
  have hx := hfg.bindings x List.not_mem_nil
  simp only [Function.comp_apply]
  revert hx
  generalize f.bindings.get? x = b, g.bindings.get? x = c
  intro hx
  cases hx with
  | none => rfl
  | some hbc => rw [Option.map_some, Option.map_some, hbc.type]

theorem Keeps.resultType? (h : s.Keeps t) : t.resultType? = s.resultType? := by
  funext f
  unfold Scopes.resultType? Scopes.function?
  rw [findSome?_keepAll (fun g k hgk => by rw [hgk.functions]) (keeps_iff.1 h)]

theorem Keeps.typeOf? (h : s.Keeps t) (e : Expr) : t.typeOf? e = s.typeOf? e := by
  unfold Scopes.typeOf?
  rw [h.variableType?, h.resultType?]

end Scopes

/-! ## Machines on which all variables are typed -/

/-- All variables are typed, and so will be those that functions declare. -/
structure Machine.Typed (m : Machine) : Prop where
  scopes : m.scopes.Typed
  functions : m.FunctionsOf ValueType.HasValues

/-- Allowed actions let no other functions come in. -/
theorem Action.Allowed.functionsOf {T : ValueType → Prop} {m : Machine} {a : Action}
    (h : a.Allowed T m) (hm : m.FunctionsOf T) : (a.after m).FunctionsOf T := by
  cases a with
  | load file => exact hm
  | enter kind => exact hm.enter kind
  | leave => exact hm.leave
  | start result => exact hm
  | stop => exact hm
  | define x b => exact hm.of_keepsBut ⟨Scopes.keepsBut_define x b m.scopes, rfl, rfl⟩
  | pass p v => exact hm.of_keepsBut ⟨Scopes.keepsBut_define p.name _ m.scopes, rfl, rfl⟩
  | defineFunction f => exact hm.defineFunction h.1
  | update x v =>
    obtain ⟨b, hb, hmutable, -⟩ := h
    obtain ⟨t, ht, hkeeps⟩ := Scopes.keeps_update? v hb hmutable
    have hafter : (Action.update x v).after m = { m with scopes := t } := by
      simp [Action.after, Action.perform, ht]
    rw [hafter]
    exact hm.of_keepsBut ⟨hkeeps, rfl, rfl⟩
  | write text => exact hm

theorem Action.Allowed.machine_typed {m : Machine} {a : Action}
    (h : a.Allowed ValueType.HasValues m) (hm : m.Typed) : (a.after m).Typed :=
  ⟨h.typed hm.scopes, h.functionsOf hm.functions⟩

theorem Legal.machine_typed {as : List Action} {m : Machine}
    (h : Legal (Action.Allowed ValueType.HasValues) as m) (hm : m.Typed) (k : Nat) :
    (moment as m k).Typed :=
  h.invariant (I := Machine.Typed) (fun _ _ ha hm' => ha.machine_typed hm') hm k

namespace Machine

theorem typed_initial (out : Output) : (initial out).Typed :=
  ⟨.initial, functionsOf_initial _ out⟩

variable {n : Nat} {m m' : Machine} {e : Expr} {v : Value}

/-- Where all variables are typed, they are so after an expression has been evaluated, and those that were
in scope are still there. -/
theorem Typed.evaluate (hm : m.Typed) (h : evaluate n e m = .done v m') :
    m.scopes.Keeps m'.scopes ∧ m'.Typed := by
  rw [← Traced.run_evaluate] at h
  have hmeets := Traced.quiet_evaluate n e m hm.functions
  obtain ⟨hkeeps, -⟩ := hmeets.of_done h
  refine ⟨hkeeps.scopes, ?_⟩
  rw [(Traced.run_eq_done h).2, ← moment_length]
  exact hmeets.legal.machine_typed hm _

/-! ## Values have the types of their expressions -/

/-- The value is one that the expression can have on the machine: one of its type, or nothing if the
expression is a name or a call. -/
def Yields (m : Machine) (e : Expr) (v : Value) : Prop :=
  ∃ t, m.scopes.typeOf? e = some t ∧ v.Fits t ∧ (v = .void → e.MayBeVoid)

/-- A value that is something needs no leave to be nothing. -/
theorem Yields.of {t : ValueType} (he : m.scopes.typeOf? e = some t) (hv : v.Of t) :
    m.Yields e v :=
  ⟨t, he, hv.fits, fun hvoid => absurd hvoid hv.value_ne_void⟩

/-- A machine on which an expression has been evaluated promises the same for the next one. -/
theorem Yields.before (h : m'.Yields e v) (hkeeps : m.scopes.Keeps m'.scopes) : m.Yields e v := by
  obtain ⟨t, ht, hv⟩ := h
  rw [hkeeps.typeOf?] at ht
  exact ⟨t, ht, hv⟩

theorem literal_of (l : Literal) : (literal l).Of l.type := by
  cases l with
  | int w => exact Value.of_int w
  | float x => exact Value.of_float x
  | bool b => exact Value.of_bool b
  | string s => exact Value.of_string s
  | char c => exact Value.of_char c

theorem yields_name {x : String} {line : Nat} (hm : m.Typed)
    (hv : (m.scopes.get x).isFault = false) : m.Yields (.name x line) (m.scopes.get x) := by
  unfold Scopes.get at hv ⊢
  cases hb : m.scopes.binding? x with
  | none =>
    rw [hb] at hv
    cases hv
  | some b =>
    have htype : m.scopes.typeOf? (.name x line) = some b.type := by
      show (m.scopes.binding? x).map Binding.type = some b.type
      rw [hb, Option.map_some]
    exact ⟨b.type, htype, (hm.scopes.binding? hb).value.symm, fun _ => .inl ⟨x, line, rfl⟩⟩

theorem yields_call {f : String} {es : List Expr} {line : Nat}
    (h : call (evaluate n) (execute n) f es line m = .done v m') (hv : v.isFault = false) :
    m.Yields (.call f es line) v := by
  obtain ⟨g, vs, m₁, hg, -, hanswer⟩ := call_answered h hv
  have htype : m.scopes.typeOf? (.call f es line) = some g.result := by
    show (m.scopes.function? f).map Function.result = some g.result
    rw [hg, Option.map_some]
  refine ⟨g.result, htype, ?_, fun _ => .inr ⟨f, es, line, rfl⟩⟩
  rcases hanswer with ⟨-, hresult⟩ | ⟨-, hvoid⟩
  · exact .inl hresult
  · exact .inr hvoid

/-- An assignment that does not fail yields a value of the declared type of its target. -/
theorem assignment_type {eval : Expr → Run Value} {op : AssignOperator} {x : String}
    (h : assignment eval op x e m = .done v m') (hv : v.isFault = false) :
    ∃ b, m.scopes.binding? x = some b ∧ v.type? = some b.type := by
  obtain ⟨o, m₀, hread, h⟩ := Run.bind_eq_done.1 h
  rw [Run.read_apply] at hread
  cases hread
  cases hb : m.scopes.binding? x with
  | none =>
    rw [hb] at h
    cases h
    cases hv
  | some b =>
    rw [hb] at h
    dsimp only at h
    split at h
    · obtain ⟨w, m₁, -, h⟩ := Run.bind_eq_done.1 h
      split at h
      · rename_i hfault
        cases h
        rw [hfault] at hv
        cases hv
      · obtain ⟨current, m₂, -, h⟩ := Run.bind_eq_done.1 h
        split at h
        · rename_i hfault
          cases h
          rw [hfault] at hv
          cases hv
        · split at h
          · rename_i htype
            obtain ⟨stored, m₃, -, h⟩ := Run.bind_eq_done.1 h
            split at h
            · cases h
              exact ⟨b, rfl, htype⟩
            · cases h
              cases hv
          · cases h
            cases hv
    · cases h
      cases hv

theorem yields_assignment {eval : Expr → Run Value} {op : AssignOperator} {x : String} {line : Nat}
    (hm : m.Typed) (h : assignment eval op x e m = .done v m') (hv : v.isFault = false) :
    m.Yields (.assign op x e line) v := by
  obtain ⟨b, hb, htype⟩ := assignment_type h hv
  refine .of (t := b.type) ?_ ⟨htype, (hm.scopes.binding? hb).type⟩
  show (m.scopes.binding? x).map Binding.type = some b.type
  rw [hb, Option.map_some]

theorem yields_binary {op : BinaryOperator} {l r : Expr} {line : Nat} {a b : Value}
    (hl : m.Yields l a) (hr : m.Yields r b) (h : (Value.binary op a b).isFault = false) :
    m.Yields (.binary op l r line) (Value.binary op a b) := by
  obtain ⟨s, hs, ha, -⟩ := hl
  obtain ⟨t, ht, hb, -⟩ := hr
  obtain ⟨u, hu, hresult⟩ := Value.of_binary h ha hb
  refine .of ?_ hresult
  unfold Scopes.typeOf? at hs ht ⊢
  rw [Expr.type?, hs, ht]
  exact hu

/-- An expression that does not fail yields a value that it can have. -/
theorem yields_evaluate {time : Nat} (he : e.Shaped) (hm : m.Typed)
    (h : evaluate time e m = .done v m') (hv : v.isFault = false) : m.Yields e v := by
  -- On the time: each part of the expression is evaluated in less of it.
  induction time generalizing e m m' v with
  | zero => cases h
  | succ n ih =>
    rw [evaluate] at h
    cases e with
    | literal l line =>
      cases h
      exact .of rfl (literal_of l)
    | name x line =>
      cases h
      exact yields_name hm hv
    | group e line =>
      rw [Expr.Shaped] at he
      have hinner : evaluate n e m = .done v m' := h
      obtain ⟨t, ht, hyields⟩ := ih he hm hinner hv
      exact ⟨t, ht, hyields⟩
    | call f es line => exact yields_call h hv
    | cast t e line =>
      rw [Expr.Shaped] at he
      obtain ⟨w, m₁, -, hcast⟩ := Run.bind_eq_done.1 h
      cases hcast
      exact .of rfl (Value.of_convert hv he.1)
    | unary op e line =>
      rw [Expr.Shaped] at he
      obtain ⟨w, m₁, hw, hunary⟩ := Run.bind_eq_done.1 h
      cases hunary
      obtain ⟨t, ht, hfits, -⟩ := ih he.1 hm hw (Value.proper_of_unary hv)
      exact .of ht (Value.of_unary hv hfits)
    | binary op l r line =>
      rw [Expr.Shaped] at he
      obtain ⟨a, m₁, ha, hrest⟩ := Run.bind_eq_done.1 h
      obtain ⟨b, m₂, hb, hbinary⟩ := Run.bind_eq_done.1 hrest
      cases hbinary
      have hproper := Value.proper_of_binary hv
      obtain ⟨hkeeps, hm₁⟩ := hm.evaluate ha
      have hleft := ih he.1 hm ha hproper.1
      have hright := ih he.2.1 hm₁ hb hproper.2
      exact yields_binary hleft (hright.before hkeeps) hv
    | assign op x e line => exact yields_assignment hm h hv

/-- **Expressions have the types they show.** Let programs that were read be run one after another on a fresh
machine. At every moment, every expression that can be read has a type that its tree, the types of the
variables in scope and the promises of the functions in scope determine, provided that it can be evaluated
there to something other than a fault; and what it is evaluated to is of this type, or is nothing at all,
which only a name or a call can yield. -/
theorem expressions_have_their_types (n : Nat) (ps : List Program) (out : Output)
    (hps : ∀ p ∈ ps, ∃ source file, Program.ofText source file = .ok p) :
    (∀ bound ts e rest, Grammar.expression bound ts = .ok e rest → e.Shaped) ∧
    ∀ k time e v m', e.Shaped →
      evaluate time e (sessionMoment n ps out k) = .done v m' → v.isFault = false →
      ∃ t, (sessionMoment n ps out k).scopes.typeOf? e = some t ∧
        (v.type? = some t ∨ v = .void) ∧ (v = .void → e.MayBeVoid) := by
  refine ⟨?_, ?_⟩
  · intro bound ts e rest h
    exact ((Grammar.reads_expression bound).of_ok h).1
  · intro k time e v m' he h hv
    have hmoment : (sessionMoment n ps out k).Typed :=
      (legal_actions hps n out).machine_typed (typed_initial out) k
    exact yields_evaluate he hmoment h hv

/-- The expression `f(x) + 1`. -/
def doubledPlusOne : Expr :=
  .binary (.arithmetic .add) (.call "f" [.name "x" 1] 1) (.literal (.int 1) 1) 1

/-- After the program that calls `f`, where `x` is four, the expression `f(x) + 1` is evaluated to nine. -/
theorem doubledPlusOne_has_type :
    (∀ p ∈ [doubling], ∃ source file, Program.ofText source file = .ok p) ∧ doubledPlusOne.Shaped ∧
    ∃ t, (sessionMoment 20 [doubling] (.empty none) 100).scopes.typeOf? doubledPlusOne = some t ∧
      ((Value.int 9).type? = some t ∨ Value.int 9 = .void) := by
  have hread : ∀ p ∈ [doubling], ∃ source file, Program.ofText source file = .ok p := by
    intro p hp
    rw [List.mem_singleton.1 hp]
    exact ⟨_, _, ofText_doubling⟩
  have hshaped : doubledPlusOne.Shaped := by
    simp [doubledPlusOne, Expr.Shaped, Expr.ShapedAll, Expr.level, BinaryOperator.tier]
  have hvalue : evaluate 20 doubledPlusOne (sessionMoment 20 [doubling] (.empty none) 100) =
      .done (.int 9) (sessionMoment 20 [doubling] (.empty none) 100) := by
    cbv
  obtain ⟨-, htypes⟩ := expressions_have_their_types 20 [doubling] (.empty none) hread
  obtain ⟨t, ht, hv, -⟩ := htypes 100 20 _ _ _ hshaped hvalue rfl
  exact ⟨hread, hshaped, t, ht, hv⟩

end Machine

end Scriptling
