import Scriptling.Proofs.Machine.Exits
import Scriptling.Proofs.Scope.Alike

/-!
# Scriptling.Proofs.Machine.Lockstep -- two runs of the same code

Code is run on two machines that look alike: they name the same file, have printed the same, have the same
calls under way, and their scopes look alike (`Machine.Indistinguishable`). Then the two runs go in lockstep:
each thing that one of them sees the other sees too, each action is carried out in both, and the scopes
opened on the way are the very same in both. This is a discipline, `lockstep`, whose places tell how many
scopes have been opened.

The main result is `shadowed_state_has_no_influence`.
-/

set_option autoImplicit false

namespace Scriptling

/-- Both computations have ended in the same way, with the same result or with the same error, or neither
has. The machines they have ended on are so related. -/
inductive Outcome.Together {α : Type} (S : Machine → Machine → Prop) : Outcome α → Outcome α → Prop
  | done {a : α} {m₁ m₂ : Machine} : S m₁ m₂ → Together S (.done a m₁) (.done a m₂)
  | raised {e : RuntimeError} {m₁ m₂ : Machine} :
    S m₁ m₂ → Together S (.raised e m₁) (.raised e m₂)
  | exhausted : Together S .exhausted .exhausted

theorem Outcome.Together.mono {α : Type} {S T : Machine → Machine → Prop} {o₁ o₂ : Outcome α}
    (h : o₁.Together S o₂) (hST : ∀ m₁ m₂, S m₁ m₂ → T m₁ m₂) : o₁.Together T o₂ := by
  cases h with
  | done h => exact .done (hST _ _ h)
  | raised h => exact .raised (hST _ _ h)
  | exhausted => exact .exhausted

namespace Machine

open Effects

/-- The machines name the same file, have printed the same and have the same calls under way, and their
scopes are so related. -/
structure Agree (S : Scopes → Scopes → Prop) (m₁ m₂ : Machine) : Prop where
  file : m₁.file = m₂.file
  output : m₁.output = m₂.output
  results : m₁.results = m₂.results
  scopes : S m₁.scopes m₂.scopes

/-- Seen by running code, the machines are the same. -/
abbrev Indistinguishable : Machine → Machine → Prop := Agree Scopes.LookAlike

/-- Seen by running code, the machines are the same, also after so many of their scopes have been closed. -/
abbrev AlikeUnder (k : Nat) : Machine → Machine → Prop := Agree (Scopes.AlikeUnder k)

namespace Agree

variable {S T : Scopes → Scopes → Prop} {m₁ m₂ : Machine}

theorem withScopes (h : Agree S m₁ m₂) {s₁ s₂ : Scopes} (hs : T s₁ s₂) :
    Agree T { m₁ with scopes := s₁ } { m₂ with scopes := s₂ } :=
  ⟨h.file, h.output, h.results, hs⟩

theorem mono (h : Agree S m₁ m₂) (hST : ∀ s₁ s₂, S s₁ s₂ → T s₁ s₂) : Agree T m₁ m₂ :=
  h.withScopes (hST _ _ h.scopes)

theorem start (h : Agree S m₁ m₂) (result : ValueType) :
    Agree S ((Action.start result).after m₁) ((Action.start result).after m₂) :=
  ⟨h.file, h.output, congrArg (result :: ·) h.results, h.scopes⟩

theorem stop (h : Agree S m₁ m₂) : Agree S (Action.stop.after m₁) (Action.stop.after m₂) :=
  ⟨h.file, h.output, congrArg List.tail h.results, h.scopes⟩

end Agree

variable {m₁ m₂ : Machine} {k : Nat}

theorem Indistinguishable.alikeUnder (h : Indistinguishable m₁ m₂) : AlikeUnder 0 m₁ m₂ :=
  h.mono fun _ _ => .base

theorem Indistinguishable.within (h : Indistinguishable m₁ m₂) (kind : Exit) :
    m₁.scopes.within (exitScope kind) = m₂.scopes.within (exitScope kind) := by
  cases kind with
  | break_ => exact h.scopes.inLoop
  | remit_ => exact h.scopes.inConditional

theorem AlikeUnder.indistinguishable (h : AlikeUnder k m₁ m₂) : Indistinguishable m₁ m₂ :=
  h.mono fun _ _ hs => hs.lookAlike

/-! ## The discipline -/

/-- Begun on machines that are alike under so many scopes, the computation ends on machines that are, in the
same way on both, and with a result, if any, of which `R` holds. -/
def InStep {α : Type} (k : Nat) (R : α → Prop) (x : Run α) : Prop :=
  ∀ m₁ m₂, AlikeUnder k m₁ m₂ → (x m₁).Together (AlikeUnder k) (x m₂) ∧ (x m₁).Yields R

section Laws

variable {α β : Type} {R : α → Prop} {S : β → Prop}

/-- What is read of machines that cannot be told apart is the same. -/
theorem inStep_read {f : Machine → α} (h : ∀ m₁ m₂, Indistinguishable m₁ m₂ → f m₁ = f m₂)
    (hR : ∀ a, R a) : InStep k R (read f) := by
  intro m₁ m₂ hm
  refine ⟨?_, hR _⟩
  rw [Run.read_apply, Run.read_apply, h m₁ m₂ (AlikeUnder.indistinguishable hm)]
  exact .done hm

theorem inStep_act {a : Action}
    (h : ∀ m₁ m₂, AlikeUnder k m₁ m₂ →
      AlikeUnder k (a.perform m₁).1 (a.perform m₂).1 ∧ (a.perform m₁).2 = (a.perform m₂).2) :
    InStep k Anything (act a) := by
  intro m₁ m₂ hm
  obtain ⟨halike, hcomplete⟩ := h m₁ m₂ hm
  refine ⟨?_, trivial⟩
  show Outcome.Together _ (.done (a.perform m₁).2 _) (.done (a.perform m₂).2 _)
  rw [hcomplete]
  exact .done halike

/-- Equal results lead on to the same computation. -/
theorem InStep.bind {x : Run β} {f : β → Run α} (hx : InStep k S x)
    (hf : ∀ b, S b → InStep k R (f b)) : InStep k R (x >>= f) := by
  intro m₁ m₂ hm
  obtain ⟨htogether, hS⟩ := hx m₁ m₂ hm
  rw [Run.bind_apply, Run.bind_apply]
  -- The two outcomes are generalised together, so that the cases on one settle the other.
  revert htogether hS
  generalize x m₁ = o₁, x m₂ = o₂
  intro htogether hS
  cases htogether with
  | done hm => exact hf _ hS _ _ hm
  | raised hm => exact ⟨.raised hm, trivial⟩
  | exhausted => exact ⟨.exhausted, trivial⟩

/-- An action at the end, after which the machines are alike as they are to be. -/
theorem InStep.always {x : Run α} {j : Nat} (hx : InStep j R x) {a : Action}
    (hm : AlikeUnder j m₁ m₂)
    (h : ∀ m₁ m₂, AlikeUnder j m₁ m₂ → AlikeUnder k (a.after m₁) (a.after m₂)) :
    (always a x m₁).Together (AlikeUnder k) (always a x m₂) ∧ (always a x m₁).Yields R := by
  obtain ⟨htogether, hR⟩ := hx m₁ m₂ hm
  show (Run.finally_ a.after x m₁).Together (AlikeUnder k) (Run.finally_ a.after x m₂) ∧
    (Run.finally_ a.after x m₁).Yields R
  unfold Run.finally_
  revert htogether hR
  generalize x m₁ = o₁, x m₂ = o₂
  intro htogether hR
  cases htogether with
  | done hm => exact ⟨.done (h _ _ hm), hR⟩
  | raised hm => exact ⟨.raised (h _ _ hm), trivial⟩
  | exhausted => exact ⟨.exhausted, trivial⟩

theorem inStep_update (x : String) (v : Value) : InStep k Anything (act (.update x v)) := by
  refine inStep_act fun m₁ m₂ hm => ?_
  have hupdate := hm.scopes.update? x v
  unfold Action.perform
  dsimp only
  revert hupdate
  generalize m₁.scopes.update? x v = s₁, m₂.scopes.update? x v = s₂
  rintro (hs | _)
  · exact ⟨hm.withScopes hs, rfl⟩
  · exact ⟨hm, rfl⟩

theorem inStep_write (text : String) : InStep k Anything (act (.write text)) := by
  refine inStep_act fun m₁ m₂ hm => ?_
  unfold Action.perform
  dsimp only
  rw [hm.output]
  exact ⟨⟨hm.file, rfl, hm.results, hm.scopes⟩, rfl⟩

end Laws

/-- Two runs go in lockstep. -/
def lockstep : Discipline Run where
  Place := Nat
  enter _ k := k + 1
  start _ k := k
  Known _ := True
  Faulty _ := True
  Raises _ _ := True
  Exits _ _ := True
  Holds k _ R x := InStep k R x
  holds_pure h := fun _ _ hm => ⟨.done hm, h⟩
  holds_bind := InStep.bind
  holds_mono hx h := fun m₁ m₂ hm => ⟨(hx m₁ m₂ hm).1, (hx m₁ m₂ hm).2.mono h⟩
  holds_exhausted := fun _ _ _ => ⟨.exhausted, trivial⟩
  holds_raise {_ _ _ f} line _ := fun m₁ m₂ hm => by
    refine ⟨?_, trivial⟩
    show Outcome.Together _ (.raised ⟨m₁.file, line, f⟩ m₁) (.raised ⟨m₂.file, line, f⟩ m₂)
    rw [hm.file]
    exact .raised hm
  holds_binding? _ x := inStep_read (fun _ _ hm => hm.scopes.bindings x) fun _ => trivial
  holds_get _ x := inStep_read
    (fun _ _ hm => by rw [Scopes.get, Scopes.get, hm.scopes.bindings x]) fun _ _ _ => trivial
  holds_function? _ x := inStep_read (fun _ _ hm => hm.scopes.functions x) fun _ _ _ => trivial
  holds_isFunctionDefined _ x := inStep_read
    (fun _ _ hm => congrArg Option.isSome (hm.scopes.functions x)) fun _ => trivial
  holds_promise _ := inStep_read (fun _ _ hm => congrArg List.head? hm.results)
    fun _ => ⟨fun _ => trivial, fun _ _ _ _ => trivial⟩
  holds_within _ kind := inStep_read (fun _ _ hm => Indistinguishable.within hm kind) fun _ _ => trivial
  holds_load _ file := inStep_act fun _ _ hm => ⟨⟨rfl, hm.output, hm.results, hm.scopes⟩, rfl⟩
  holds_define _ x b _ := inStep_act fun _ _ hm => ⟨hm.withScopes (hm.scopes.define x b), rfl⟩
  holds_pass _ p v _ := inStep_act fun _ _ hm => ⟨hm.withScopes (hm.scopes.define p.name _), rfl⟩
  holds_update _ x v _ := inStep_update x v
  holds_write _ text := inStep_write text
  holds_defineFunction _ _ _ := inStep_act fun _ _ hm =>
    ⟨hm.withScopes (hm.scopes.defineFunction _), rfl⟩
  holds_inScope kind hx := fun _ _ hm =>
    hx.always (hm.withScopes (hm.scopes.enter kind)) fun _ _ h => h.withScopes h.scopes.leave
  holds_inCall result hx := fun _ _ hm => hx.always (hm.start result) fun _ _ h => h.stop
  faulty_of_ne _ := trivial
  raises_of_faulty _ := trivial
  exits_next _ := trivial
  exits_leaveCall _ := fun _ _ => trivial
  exits_plain h := h
  exits_conditional _ _ := trivial
  exits_loop _ _ := trivial

/-- **Shadowed state has no influence.** Two machines name the same file, have printed the same and have
the same calls under way. On both, each name stands for the same variable, with its value, type and
mutability, or for none, and for the same function or for none; and an exit finds a loop on both or on
neither, and likewise a conditional. The scopes may be different in number, in what opened them and in what
is hidden in them. Then an expression has the same value on both, or the same error, or comes to no end in
the time given, and a statement ends in the same way; and the machines are again as said before. -/
theorem shadowed_state_has_no_influence (n : Nat) {m₁ m₂ : Machine} (h : Indistinguishable m₁ m₂) :
    (∀ e, (evaluate n e m₁).Together Indistinguishable (evaluate n e m₂)) ∧
      ∀ s, (execute n s m₁).Together Indistinguishable (execute n s m₂) := by
  obtain ⟨hevaluate, hexecute⟩ := lockstep.evaluate_execute (fun _ => trivial) n
  have hends {α : Type} {o₁ o₂ : Outcome α} (ho : o₁.Together (AlikeUnder 0) o₂) :
      o₁.Together Indistinguishable o₂ :=
    ho.mono fun _ _ => AlikeUnder.indistinguishable
  exact ⟨fun e => hends (hevaluate (0 : Nat) e m₁ m₂ h.alikeUnder).1,
    fun s => hends (hexecute (0 : Nat) s m₁ m₂ h.alikeUnder).1⟩

/-- A machine in a loop, with a variable that hides a global one. -/
def shallow : Machine where
  file := "hidden"
  scopes := ⟨⟨.loop, [("x", ⟨.int 1, .int, true⟩)], []⟩,
    [⟨.plain, [("x", ⟨.bool true, .bool, false⟩)], []⟩]⟩
  results := [.int]
  output := .empty none

/-- A machine in a block in a loop in a call, with the same variable, which hides one of the call. -/
def deep : Machine where
  file := "hidden"
  scopes := ⟨⟨.plain, [], []⟩, [⟨.loop, [("x", ⟨.int 1, .int, true⟩)], []⟩,
    ⟨.call, [("x", ⟨.string "", .string, false⟩)], []⟩, ⟨.conditional, [], []⟩]⟩
  results := [.int]
  output := .empty none

/-- A block that gives the variable a value and leaves the loop. -/
def leaving : Statement :=
  .block ⟨[.expr (.assign .plain "x" (.literal (.int 2) 1) 1) 1, .exit .break_ 1], 1⟩

/-- The two machines are indistinguishable, and the block leaves them so. -/
theorem leaving_shallow_and_deep :
    Indistinguishable shallow deep ∧
    ∃ m₁ m₂, execute 5 leaving shallow = .done .leaveLoop m₁ ∧
      execute 5 leaving deep = .done .leaveLoop m₂ ∧ Indistinguishable m₁ m₂ := by
  have h : Indistinguishable shallow deep := by
    refine ⟨rfl, rfl, rfl, fun x => ?_, fun x => rfl, rfl, rfl⟩
    by_cases hx : "x" = x
    · simp [shallow, deep, Scopes.binding?, Scopes.frames, List.findSome?_cons, Table.get?, hx]
    · simp [shallow, deep, Scopes.binding?, Scopes.frames, List.findSome?_cons, Table.get?, hx]
  have hends := (shadowed_state_has_no_influence 5 h).2 leaving
  obtain ⟨m₁, hshallow⟩ : ∃ m₁, execute 5 leaving shallow = .done .leaveLoop m₁ := ⟨_, rfl⟩
  rw [hshallow] at hends
  generalize hdeep : execute 5 leaving deep = o at hends
  cases hends with
  | done hm => exact ⟨h, m₁, _, hshallow, rfl, hm⟩

end Machine

end Scriptling
