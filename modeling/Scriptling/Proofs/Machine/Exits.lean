import Scriptling.Proofs.Machine.Discipline
import Scriptling.Proofs.Machine.Frames
import Scriptling.Proofs.Scope.Typed

/-!
# Scriptling.Proofs.Machine.Exits -- how statements end, and where they can end so

An exit is let through if the scopes up to the innermost call hold one that it leaves; it is stopped by the
construct that opened such a scope. A `Context` is what both have in common. It describes a machine if it
names what an exit finds there (`Context.Describes`), and a statement begun on such a machine ends only in
the ways that the context has room for (`Context.Exits`). Opening a scope and starting a call change the
context as they change the machine, and running code leaves it as it was, because it leaves the kinds of the
scopes and the calls under way (`Machine.SameNesting`). This makes a discipline, `containment`. It also
says that no fault of a `return` without a call comes out of a call, where there is no such fault among the
values of variables (`Machine.Stocked`).

The main result is `exits_never_leak`.
-/

set_option autoImplicit false

namespace Scriptling

/-- What holds of the result, if there is one. -/
def Outcome.Yields {α : Type} (R : α → Prop) : Outcome α → Prop
  | .done a _ => R a
  | .raised _ _ => True
  | .exhausted => True

theorem Outcome.Yields.mono {α : Type} {R S : α → Prop} {o : Outcome α} (h : o.Yields R)
    (hRS : ∀ a, R a → S a) : o.Yields S := by
  cases o with
  | done a _ => exact hRS a h
  | raised _ _ => trivial
  | exhausted => trivial

/-- What holds of the result, or of the fault that is raised, and what holds of the machine either way. -/
def Outcome.Ends {α : Type} (R : α → Prop) (F : Fault → Prop) (S : Machine → Prop) : Outcome α → Prop
  | .done a m => R a ∧ S m
  | .raised e m => F e.fault ∧ S m
  | .exhausted => True

namespace Outcome.Ends

variable {α : Type} {R R' : α → Prop} {F F' : Fault → Prop} {S S' : Machine → Prop} {o : Outcome α}

theorem mono (h : o.Ends R F S) (hR : ∀ a, R a → R' a) (hF : ∀ f, F f → F' f)
    (hS : ∀ m, S m → S' m) : o.Ends R' F' S' := by
  cases o with
  | done a m => exact ⟨hR a h.1, hS m h.2⟩
  | raised e m => exact ⟨hF e.fault h.1, hS m h.2⟩
  | exhausted => trivial

theorem yields (h : o.Ends R F S) : o.Yields R := by
  cases o with
  | done a m => exact h.1
  | raised e m => trivial
  | exhausted => trivial

end Outcome.Ends

/-! ## The same nesting -/

namespace Machine

variable {m m' m'' : Machine}

theorem SameNesting.refl (m : Machine) : m.SameNesting m := ⟨rfl, rfl⟩

theorem SameNesting.trans (h : m.SameNesting m') (k : m'.SameNesting m'') : m.SameNesting m'' :=
  ⟨k.kinds.trans h.kinds, k.results.trans h.results⟩

theorem SameNesting.within (h : m.SameNesting m') (kind : ScopeKind) :
    m'.scopes.within kind = m.scopes.within kind :=
  Scopes.reaches_congr kind h.kinds

/-- After a scope has been opened and closed again, the same scopes are open. -/
theorem SameNesting.leave {kind : ScopeKind}
    (h : SameNesting { m with scopes := m.scopes.enter kind } m') :
    m.SameNesting (Action.leave.after m') := by
  refine ⟨?_, h.results⟩
  have hkinds : m'.scopes.kinds = kind :: m.scopes.kinds := h.kinds
  rcases m' with ⟨file, ⟨current, outer⟩, results, output⟩
  have houter : outer.map Frame.kind = m.scopes.kinds := (List.cons.inj hkinds).2
  cases outer with
  | nil => cases houter
  | cons f fs => exact houter

/-- After a call has been started and stopped again, the same calls are under way. -/
theorem SameNesting.stop {result : ValueType}
    (h : SameNesting { m with results := result :: m.results } m') :
    m.SameNesting (Action.stop.after m') := by
  have hresults : m'.results = result :: m.results := h.results
  refine ⟨h.kinds, ?_⟩
  show m'.results.tail = m.results
  rw [hresults, List.tail_cons]

/-- An update leaves everything in place but the values of variables. -/
theorem frames_after_update {β : Type} {φ : Frame → β}
    (hφ : ∀ f t, φ { f with bindings := t } = φ f) (x : String) (v : Value) (m : Machine) :
    ((Action.update x v).after m).scopes.frames.map φ = m.scopes.frames.map φ ∧
      ((Action.update x v).after m).results = m.results := by
  unfold Action.after Action.perform
  dsimp only
  split
  · rename_i t ht
    exact ⟨Scopes.map_update? hφ ht, rfl⟩
  · exact ⟨rfl, rfl⟩

/-! ## What lies in the scopes -/

/-- All functions in scope satisfy `K`, and a fault that is the value of a variable satisfies `F`. -/
structure Stocked (F : Fault → Prop) (K : Function → Prop) (m : Machine) : Prop where
  knows : m.Knows K
  values : m.scopes.AllVariables fun b => b.value.FaultIs F

namespace Stocked

variable {F : Fault → Prop} {K : Function → Prop}

/-- Of every machine it holds that there are some functions and some faults in it. -/
theorem anything (m : Machine) : m.Stocked Anything Anything :=
  ⟨knows_true m, fun _ _ _ _ _ _ _ => trivial⟩

theorem initial (F : Fault → Prop) (K : Function → Prop) (out : Output) :
    (Machine.initial out).Stocked F K :=
  ⟨knows_initial K out, .initial⟩

theorem enter (h : m.Stocked F K) (kind : ScopeKind) :
    Stocked F K { m with scopes := m.scopes.enter kind } :=
  ⟨h.knows.enter kind, h.values.enter kind⟩

theorem leave (h : m.Stocked F K) : Stocked F K { m with scopes := m.scopes.leave } :=
  ⟨h.knows.leave, h.values.leave⟩

theorem define (h : m.Stocked F K) (x : String) {b : Binding} (hb : b.value.FaultIs F) :
    Stocked F K { m with scopes := m.scopes.define x b } :=
  ⟨h.knows.congr rfl, h.values.define x hb⟩

theorem defineFunction (h : m.Stocked F K) {f : Function} (hf : K f) :
    Stocked F K { m with scopes := m.scopes.defineFunction f } :=
  ⟨h.knows.defineFunction hf, h.values.defineFunction f⟩

theorem update (h : m.Stocked F K) (x : String) {v : Value} (hv : v.FaultIs F) :
    ((Action.update x v).after m).Stocked F K where
  knows := h.knows.congr (frames_after_update (φ := Frame.functions) (fun _ _ => rfl) x v m).1
  values := by
    unfold Action.after Action.perform
    dsimp only
    split
    · rename_i t ht
      exact h.values.update? (fun _ _ => hv) ht
    · exact h.values

/-- What a name comes to is the value of a variable, or the fault that there is none. -/
theorem get (h : m.Stocked F K) (hF : F .undefinedVariable) (x : String) :
    (m.scopes.get x).FaultIs F := by
  unfold Scopes.get
  split
  · rename_i b hb
    exact h.values.binding? hb
  · exact Value.faultIs_fault hF

end Stocked

/-- The same scopes are open and the same calls are under way, and what lies in the scopes is as said. -/
structure Settled (F : Fault → Prop) (K : Function → Prop) (m m' : Machine) : Prop where
  nesting : m.SameNesting m'
  stock : m'.Stocked F K

section Settled

variable {F : Fault → Prop} {K : Function → Prop}

theorem Stocked.settled (hm : m.Stocked F K) : m.Settled F K m := ⟨.refl m, hm⟩

theorem settled_update (hm : m.Stocked F K) (x : String) {v : Value} (hv : v.FaultIs F) :
    m.Settled F K ((Action.update x v).after m) where
  nesting := by
    obtain ⟨hkinds, hresults⟩ := frames_after_update (φ := Frame.kind) (fun _ _ => rfl) x v m
    exact ⟨hkinds, hresults⟩
  stock := hm.update x hv

theorem Settled.leave {kind : ScopeKind}
    (h : Settled F K { m with scopes := m.scopes.enter kind } m') :
    m.Settled F K (Action.leave.after m') := ⟨h.nesting.leave, h.stock.leave⟩

theorem Settled.stop {result : ValueType}
    (h : Settled F K { m with results := result :: m.results } m') :
    m.Settled F K (Action.stop.after m') := ⟨h.nesting.stop, h.stock.knows, h.stock.values⟩

end Settled

end Machine

/-! ## Contexts of machines -/

namespace Context

/-- In a new scope. -/
def enter : ScopeKind → Context → Context
  | .plain, c => c
  | .conditional, c => { c with inConditional := true }
  | .loop, c => { c with inLoop := true }
  | .call, c => { c with inLoop := false, inConditional := false }

/-- In a call that promises a result of the type. -/
def start (result : ValueType) (c : Context) : Context := { c with promise := some result }

/-- The machine shows what the context says: an exit finds what it leaves, and a call is under way that
promises the type. -/
structure Describes (c : Context) (m : Machine) : Prop where
  inLoop : m.scopes.within .loop = c.inLoop
  inConditional : m.scopes.within .conditional = c.inConditional
  promise : m.results.head? = c.promise

/-- The context that a machine shows. -/
def of (m : Machine) : Context :=
  ⟨m.scopes.within .loop, m.scopes.within .conditional, m.results.head?⟩

theorem of_describes (m : Machine) : (of m).Describes m := ⟨rfl, rfl, rfl⟩

theorem top_describes_initial (out : Output) : top.Describes (Machine.initial out) :=
  ⟨rfl, rfl, rfl⟩

/-- The ways in which a statement in the context can end. A call is left with a value of the type that it
promises. -/
def Exits (c : Context) : Flow → Prop
  | .next => True
  | .leaveLoop => c.inLoop = true
  | .leaveConditional => c.inConditional = true
  | .leaveCall v => ∃ t, c.promise = some t ∧ v.type? = some t

/-- The faults that code in the context can raise: outside of functions all of them, and inside only those
that satisfy `F`. -/
def Raises (F : Fault → Prop) (c : Context) (f : Fault) : Prop := F f ∨ c.promise = none

variable {c : Context} {m m' : Machine}

theorem Describes.enter (h : c.Describes m) (kind : ScopeKind) :
    (c.enter kind).Describes { m with scopes := m.scopes.enter kind } := by
  obtain ⟨hloop, hconditional, hpromise⟩ := h
  cases kind with
  | plain => exact ⟨hloop, hconditional, hpromise⟩
  | conditional => exact ⟨hloop, rfl, hpromise⟩
  | loop => exact ⟨rfl, hconditional, hpromise⟩
  | call => exact ⟨rfl, rfl, hpromise⟩

theorem Describes.start (h : c.Describes m) (result : ValueType) :
    (c.start result).Describes { m with results := result :: m.results } :=
  ⟨h.inLoop, h.inConditional, rfl⟩

theorem Describes.of_sameNesting (h : c.Describes m) (hm : m.SameNesting m') : c.Describes m' where
  inLoop := (hm.within .loop).trans h.inLoop
  inConditional := (hm.within .conditional).trans h.inConditional
  promise := hm.results ▸ h.promise

/-- What an exit finds is what the context has a place for. -/
theorem Describes.within (h : c.Describes m) (kind : Exit) :
    m.scopes.within (Machine.exitScope kind) = c.places kind := by
  cases kind with
  | break_ => exact h.inLoop
  | remit_ => exact h.inConditional

theorem exits_exitFlow {kind : Exit} (h : c.places kind = true) :
    c.Exits (Machine.exitFlow kind) := by
  cases kind <;> exact h

theorem raises_of_enter {F : Fault → Prop} {kind : ScopeKind} {f : Fault}
    (h : (c.enter kind).Raises F f) : c.Raises F f := by
  cases kind <;> exact h

/-- Within a call there is a promise. -/
theorem raises_of_start {F : Fault → Prop} {result : ValueType} {f : Fault}
    (h : (c.start result).Raises F f) : F f := by
  rcases h with h | hnone
  · exact h
  · cases hnone

/-- Outside of everything, a statement ends in the next one. -/
theorem next_of_exits_top {flow : Flow} (h : top.Exits flow) : flow = .next := by
  cases flow with
  | next => rfl
  | leaveLoop => cases h
  | leaveConditional => cases h
  | leaveCall v =>
    obtain ⟨t, ht, _⟩ := h
    cases ht

/-- The body of a function is run to its end or left with a value. -/
theorem exits_body {f : Function} {flow : Flow}
    (h : (Context.enter .call (c.start f.result)).Exits flow) :
    flow = .next ∨ ∃ v, flow = .leaveCall v := by
  cases flow with
  | next => exact .inl rfl
  | leaveLoop => cases h
  | leaveConditional => cases h
  | leaveCall v => exact .inr ⟨v, rfl⟩

end Context

/-! ## Exits are contained -/

open Effects Machine

/-- Begun on a machine that the context describes, with scopes in which lies what is said, the computation
has a result of which `R` holds, if any, or raises a fault that the context admits; and it leaves the machine
so, however it ends. -/
def Contained {α : Type} (F : Fault → Prop) (K : Function → Prop) (c : Context) (R : α → Prop)
    (x : Run α) : Prop :=
  ∀ m, c.Describes m → m.Stocked F K → (x m).Ends R (c.Raises F) (m.Settled F K)

section Laws

variable {α β : Type} {F : Fault → Prop} {K : Function → Prop} {c : Context} {R : α → Prop}
  {S : β → Prop}

theorem contained_read {f : Machine → α} (h : ∀ m, c.Describes m → m.Stocked F K → R (f m)) :
    Contained F K c R (read f) :=
  fun m hm hK => ⟨h m hm hK, hK.settled⟩

theorem contained_act {a : Action}
    (h : ∀ m : Machine, m.Stocked F K → m.Settled F K (a.after m)) :
    Contained F K c Anything (act a) :=
  fun m _ hK => ⟨trivial, h m hK⟩

theorem Contained.bind {x : Run β} {f : β → Run α} (hx : Contained F K c S x)
    (hf : ∀ b, S b → Contained F K c R (f b)) : Contained F K c R (x >>= f) := by
  intro m hm hK
  have hends := hx m hm hK
  rw [Run.bind_apply]
  cases hxm : x m with
  | done b m₁ =>
    rw [hxm] at hends
    -- The nesting is as it was, so the context describes also the machine in between.
    obtain ⟨hS, hnesting, hK₁⟩ : S b ∧ m.Settled F K m₁ := hends
    exact (hf b hS m₁ (hm.of_sameNesting hnesting) hK₁).mono (fun _ h => h) (fun _ h => h)
      fun _ h => ⟨hnesting.trans h.nesting, h.stock⟩
  | raised e m₁ =>
    rw [hxm] at hends
    exact hends
  | exhausted => trivial

/-- An action at the end, which undoes what was done before the computation began. -/
theorem Contained.always {x : Run α} {c' : Context} (hx : Contained F K c' R x) {a : Action}
    {m m₀ : Machine} (hm₀ : c'.Describes m₀) (hK : m₀.Stocked F K)
    (hraises : ∀ f, c'.Raises F f → c.Raises F f)
    (h : ∀ m', m₀.Settled F K m' → m.Settled F K (a.after m')) :
    (always a x m₀).Ends R (c.Raises F) (m.Settled F K) := by
  have hends := hx m₀ hm₀ hK
  show (Run.finally_ a.after x m₀).Ends R (c.Raises F) (m.Settled F K)
  unfold Run.finally_
  cases hxm : x m₀ with
  | done b m₁ =>
    rw [hxm] at hends
    exact ⟨hends.1, h m₁ hends.2⟩
  | raised e m₁ =>
    rw [hxm] at hends
    exact ⟨hraises _ hends.1, h m₁ hends.2⟩
  | exhausted => trivial

theorem Contained.inScope {x : Run α} (kind : ScopeKind) (hx : Contained F K (c.enter kind) R x) :
    Contained F K c R (inScope kind x) := by
  intro m hm hK
  exact hx.always (hm.enter kind) (hK.enter kind) (fun _ h => Context.raises_of_enter h)
    fun _ h => h.leave

theorem Contained.inCall {x : Run α} (result : ValueType) (hx : Contained F K (c.start result) R x) :
    Contained F K c R (inCall result x) := by
  intro m hm hK
  exact hx.always (hm.start result) ⟨hK.knows, hK.values⟩
    (fun _ h => .inl (Context.raises_of_start h)) fun _ h => h.stop

theorem Contained.attempt {x : Run α} (hx : Contained F K c R x) :
    Contained F K c Anything (Run.attempt x) := by
  intro m hm hK
  have hends := hx m hm hK
  unfold Run.attempt
  cases hxm : x m with
  | done b m₁ =>
    rw [hxm] at hends
    exact ⟨trivial, hends.2⟩
  | raised e m₁ =>
    rw [hxm] at hends
    exact ⟨trivial, hends.2⟩
  | exhausted => trivial

end Laws

/-- Exits are contained by the constructs they leave, and the faults of `return` by calls. -/
def containment {F : Fault → Prop} (hF : ∀ f, f ≠ .returnOutsideFunction → F f)
    (K : Function → Prop) : Discipline Run where
  Place := Context
  enter := Context.enter
  start := Context.start
  Known := K
  Faulty := F
  Raises := Context.Raises F
  Exits := Context.Exits
  Holds c _ R x := Contained F K c R x
  holds_pure h := fun _ _ hK => ⟨h, hK.settled⟩
  holds_bind := Contained.bind
  holds_mono hx h := fun m hm hK => (hx m hm hK).mono h (fun _ hf => hf) fun _ hm' => hm'
  holds_exhausted := fun _ _ _ => trivial
  holds_raise _ hf := fun _ _ hK => ⟨hf, hK.settled⟩
  holds_binding? _ _ := contained_read fun _ _ _ => trivial
  holds_get _ x := contained_read fun _ _ hK => hK.get (hF _ (by decide)) x
  holds_function? _ _ := contained_read fun _ _ hK _ hf => hK.knows.function? hf
  holds_isFunctionDefined _ _ := contained_read fun _ _ _ => trivial
  holds_promise _ := contained_read fun _ hm _ =>
    ⟨fun hnone => .inr (hm.promise ▸ hnone), fun t ht _ hv => ⟨t, hm.promise ▸ ht, hv⟩⟩
  holds_within _ kind := contained_read fun _ hm _ hplaced =>
    Context.exits_exitFlow ((hm.within kind).symm.trans hplaced)
  holds_load _ _ := contained_act fun _ hK => ⟨⟨rfl, rfl⟩, hK.knows, hK.values⟩
  holds_define _ x _ hb := contained_act fun _ hK =>
    ⟨⟨rfl, rfl⟩, hK.define x hb⟩
  holds_pass _ p _ hv := contained_act fun _ hK =>
    ⟨⟨rfl, rfl⟩, hK.define p.name hv⟩
  holds_update _ x _ hv := contained_act fun _ hK => settled_update hK x hv
  holds_write _ _ := contained_act fun _ hK => ⟨⟨rfl, rfl⟩, hK.knows, hK.values⟩
  holds_defineFunction _ _ hf := contained_act fun _ hK => ⟨⟨rfl, rfl⟩, hK.defineFunction hf⟩
  holds_inScope := Contained.inScope
  holds_inCall := Contained.inCall
  faulty_of_ne := hF _
  raises_of_faulty := .inl
  exits_next _ := trivial
  exits_leaveCall h := by
    obtain ⟨t, _, hv⟩ := h
    exact Value.faultIs_of_proper (Value.proper_of_type hv)
  exits_plain h := h
  exits_conditional {_ flow} h hflow := by
    cases flow with
    | leaveConditional => exact absurd rfl hflow
    | _ => exact h
  exits_loop {_ flow} h hflow := by
    cases flow with
    | leaveLoop => exact absurd rfl hflow
    | _ => exact h

namespace Machine

/-! ## Expressions, statements and programs -/

/-- Containment on all machines, whatever lies in their scopes. -/
abbrev containing : Discipline Run := containment (F := Anything) (fun _ _ => trivial) Anything

theorem contained_evaluate (n : Nat) (c : Context) (e : Expr) :
    containing.Holds c containing.Sound (evaluate n e) :=
  (containing.evaluate_execute (fun _ => trivial) n).1 c e

theorem contained_execute (n : Nat) (c : Context) (s : Statement) :
    containing.Holds c c.Exits (execute n s) :=
  (containing.evaluate_execute (fun _ => trivial) n).2 c s

/-- Every machine shows some context, so what holds in all contexts holds of all machines. -/
theorem yields_of_contained {α : Type} {R : α → Prop} {x : Run α} {m : Machine}
    (h : containing.Holds (Context.of m) R x) : (x m).Yields R :=
  (h m (Context.of_describes m) (.anything m)).yields

theorem bodyFlow_yields (n : Nat) (f : Function) (vs : List Value) (m : Machine) :
    (bodyFlow (execute n) f vs m).Yields fun flow => flow = .next ∨ ∃ v, flow = .leaveCall v := by
  have hvs : ∀ v ∈ vs, containing.Sound v := fun _ _ _ _ => trivial
  have h := containing.bodyFlow (p := Context.of m) (f := f) hvs
    fun s _ => contained_execute n _ s
  exact (yields_of_contained h).mono fun _ hflow => Context.exits_body hflow

theorem contained_interpret (n : Nat) (c : Context) (p : Program) :
    containing.Holds c Anything (interpret n p) :=
  containing.program fun s _ => containing.holds_mono (contained_execute n c s) fun _ _ => trivial

theorem contained_session (n : Nat) (c : Context) (ps : List Program) :
    containing.Holds c Anything (session n ps) := by
  induction ps with
  | nil => exact containing.holds_pure trivial
  | cons p ps ih => exact (contained_interpret n c p).attempt.bind fun _ _ => ih

/-- What leaves a loop leaves no loop around it. -/
theorem loop_yields (n : Nat) (e : Expr) (b : Block) (line : Nat) (m : Machine) :
    (execute n (.loop e b line) m).Yields (· ≠ .leaveLoop) := by
  cases n with
  | zero => trivial
  | succ n =>
    have h := containing.repeated (p := Context.of m) (contained_evaluate n) e
      (fun s (_ : s ∈ b.statements) => contained_execute n _ s)
      (containing.holds_pure (a := ()) trivial) n
    exact (yields_of_contained h).mono fun _ hflow => hflow.2

theorem count_yields (n : Nat) (d : VarDecl) (e step : Expr) (b : Block) (line : Nat) (m : Machine) :
    (execute n (.count d e step b line) m).Yields (· ≠ .leaveLoop) := by
  cases n with
  | zero => trivial
  | succ n =>
    have h := containing.counted (p := Context.of m) (contained_evaluate n) d e step
      (fun s (_ : s ∈ b.statements) => contained_execute n _ s) n
    exact (yields_of_contained h).mono fun _ hflow => hflow.2

/-- What leaves a conditional leaves no conditional around it. -/
theorem cond_yields (n : Nat) (e : Expr) (b : Block) (rest : Branches) (line : Nat) (m : Machine) :
    (execute n (.cond e b rest line) m).Yields (· ≠ .leaveConditional) := by
  cases n with
  | zero => trivial
  | succ n =>
    have hbranch := containing.branch (p := Context.of m)
      fun s (_ : s ∈ b.statements) => contained_execute n _ s
    have hbranches := containing.branches (p := Context.of m) (contained_evaluate n)
      fun s (_ : s ∈ rest.inner) => contained_execute n _ s
    have hcondition := containing.condition (contained_evaluate n) (Context.of m) e
    refine yields_of_contained (hcondition.bind fun taken _ => ?_)
    split
    · exact containing.holds_mono hbranch fun _ hflow => hflow.2
    · exact containing.holds_mono hbranches fun _ hflow => hflow.2

/-- **Exits never leak.** Executed on any machine, a statement ends in leaving a loop only where a scope of
a loop is reached up to the innermost call, in leaving a conditional only where one of a conditional is, and
in leaving a call only if one is under way. Loops do not end in leaving a loop, and conditionals not in
leaving a conditional. So the body of a function is run to its end or left with a value: it makes no
difference what is done with a body that ends in another way. And a statement at the outermost level, after
other programs and after the statements before it, ends in the next one. -/
theorem exits_never_leak :
    (∀ (n : Nat) (s : Statement) (m : Machine), (execute n s m).Yields fun flow =>
      (flow = .leaveLoop → m.scopes.within .loop = true) ∧
      (flow = .leaveConditional → m.scopes.within .conditional = true) ∧
      ∀ v, flow = .leaveCall v → m.results ≠ []) ∧
    (∀ (n : Nat) (m : Machine),
      (∀ e b line, (execute n (.loop e b line) m).Yields (· ≠ .leaveLoop)) ∧
      (∀ d e step b line, (execute n (.count d e step b line) m).Yields (· ≠ .leaveLoop)) ∧
      ∀ e b rest line, (execute n (.cond e b rest line) m).Yields (· ≠ .leaveConditional)) ∧
    (∀ (n : Nat) (f : Function) (vs : List Value) (m : Machine),
      (bodyFlow (execute n) f vs m).Yields (fun flow => flow = .next ∨ ∃ v, flow = .leaveCall v) ∧
      ∀ line, body (execute n) f vs line m =
        (do
          match ← bodyFlow (execute n) f vs with
          | .leaveCall v => pure v
          | _ => pure .void : Run Value) m) ∧
    ∀ (n : Nat) (ps : List Program) (out : Output) (file : String) (before : List Statement)
      (s : Statement),
      ((do
        session n ps
        interpret n ⟨file, before⟩
        execute n s : Run Flow) (initial out)).Yields (· = .next) := by
  refine ⟨fun n s m => ?_, fun n m => ⟨?_, ?_, ?_⟩, fun n f vs m => ⟨?_, fun line => ?_⟩, ?_⟩
  · refine (yields_of_contained (contained_execute n _ s)).mono fun flow hflow => ?_
    refine ⟨?_, ?_, ?_⟩
    · rintro rfl
      exact hflow
    · rintro rfl
      exact hflow
    · rintro v rfl hnil
      obtain ⟨t, ht, _⟩ := hflow
      have hhead : m.results.head? = some t := ht
      rw [hnil] at hhead
      cases hhead
  · exact fun e b line => loop_yields n e b line m
  · exact fun d e step b line => count_yields n d e step b line m
  · exact fun e b rest line => cond_yields n e b rest line m
  · exact bodyFlow_yields n f vs m
  · have hflow := bodyFlow_yields n f vs m
    rw [body, Run.bind_apply, Run.bind_apply]
    cases hbody : bodyFlow (execute n) f vs m with
    | raised e m' => rfl
    | exhausted => rfl
    | done flow m' =>
      rw [hbody] at hflow
      rcases hflow with rfl | ⟨v, rfl⟩
      · rfl
      · rfl
  · intro n ps out file before s
    -- All of it is run in the context that stands outside of everything, where nothing can be left.
    have hrun : containing.Holds Context.top Context.top.Exits
        (do session n ps; interpret n ⟨file, before⟩; execute n s) :=
      (contained_session n .top ps).bind fun _ _ =>
        (contained_interpret n .top ⟨file, before⟩).bind fun _ _ => contained_execute n .top s
    have hends := (hrun _ (Context.top_describes_initial out) (.anything _)).yields
    exact hends.mono fun _ hflow => Context.next_of_exits_top hflow

end Machine

end Scriptling
