import Scriptling.Proofs.Trace.Basic

/-!
# Scriptling.Proofs.Trace.Logic -- reasoning about listed actions

`Meets L x Q E m` says of the computation `x` begun on the machine `m`: each of its actions is one that `L`
allows on the machine it is carried out on, whether or not the computation comes to an end; if it ends with
a result, `Q` holds of the result and the machine it leaves, and if it raises a fault, `E` does.

One law for each thing that a computation can do reduces `Meets` of a construct to `Meets` of its parts.

The moments of a list of actions are the machines after its first parts. What allowed actions preserve
holds at all of them (`Legal.invariant`).
-/

set_option autoImplicit false

namespace Scriptling

/-- The computation, if it comes to an end, ends on a machine of which `P` holds: with a result and with a
raised fault alike. -/
def Outcome.EndsOn {α : Type} (P : Machine → Prop) : Outcome α → Prop
  | .done _ m => P m
  | .raised _ m => P m
  | .exhausted => True

theorem Outcome.EndsOn.mono {α : Type} {P Q : Machine → Prop} {o : Outcome α} (h : o.EndsOn P)
    (hPQ : ∀ m, P m → Q m) : o.EndsOn Q := by
  cases o with
  | done _ m => exact hPQ m h
  | raised _ m => exact hPQ m h
  | exhausted => trivial

/-- Each action of a list is allowed on the machine it is carried out on. -/
def Legal (L : Machine → Action → Prop) : List Action → Machine → Prop
  | [], _ => True
  | a :: as, m => L m a ∧ Legal L as (a.after m)

section Legal

variable {L : Machine → Action → Prop}

theorem legal_append {as bs : List Action} {m : Machine} :
    Legal L (as ++ bs) m ↔ Legal L as m ∧ Legal L bs (replay as m) := by
  induction as generalizing m with
  | nil => simp [Legal, replay]
  | cons a as ih => simp [Legal, replay, ih, and_assoc]

/-- An action in the midst of a list is allowed on the machine that the actions before it make. -/
theorem Legal.at {as bs : List Action} {a : Action} {m : Machine}
    (h : Legal L (as ++ a :: bs) m) : L (replay as m) a :=
  (legal_append.1 h).2.1

end Legal

/-! ## Moments -/

/-- The machine after the first `k` of the actions. -/
def moment (as : List Action) (m : Machine) (k : Nat) : Machine := replay (as.take k) m

section Moments

variable {L : Machine → Action → Prop} {as : List Action} {m : Machine} {k : Nat}

/-- The last moment is the machine after all actions. -/
theorem moment_length (as : List Action) (m : Machine) : moment as m as.length = replay as m := by
  unfold moment
  rw [List.take_length]

/-- From one moment to the next there is one action. -/
theorem moment_succ {a : Action} (h : as[k]? = some a) :
    moment as m (k + 1) = a.after (moment as m k) := by
  unfold moment
  rw [List.take_add_one, h, replay_append]
  rfl

/-- Nothing changes after the last action. -/
theorem moment_succ_of_none (h : as[k]? = none) : moment as m (k + 1) = moment as m k := by
  unfold moment
  rw [List.take_add_one, h, Option.toList_none, List.append_nil]

/-- Each action is allowed at its moment. -/
theorem Legal.at_moment {a : Action} (h : Legal L as m) (ha : as[k]? = some a) :
    L (moment as m k) a := by
  induction as generalizing m k with
  | nil => cases ha
  | cons b as ih =>
    cases k with
    | zero =>
      cases ha
      exact h.1
    | succ k => exact ih h.2 ha

/-- What allowed actions preserve holds at all moments. -/
theorem Legal.invariant {I : Machine → Prop} (hI : ∀ m a, L m a → I m → I (a.after m))
    (h : Legal L as m) (hm : I m) (k : Nat) : I (moment as m k) := by
  induction k with
  | zero => exact hm
  | succ k ih =>
    cases ha : as[k]? with
    | none =>
      rw [moment_succ_of_none ha]
      exact ih
    | some a =>
      rw [moment_succ ha]
      exact hI _ a (h.at_moment ha) ih

end Moments

namespace Traced

open Effects

/-- All actions of the computation are allowed, and its end is as asked. -/
def Meets {α : Type} (L : Machine → Action → Prop) (x : Traced α) (Q : α → Machine → Prop)
    (E : RuntimeError → Machine → Prop) (m : Machine) : Prop :=
  Legal L (x m).2 m ∧
    match (x m).1 with
    | .done a => Q a (replay (x m).2 m)
    | .raised e => E e (replay (x m).2 m)
    | .exhausted => True

section Laws

variable {α β : Type} {L : Machine → Action → Prop} {Q : α → Machine → Prop}
  {E : RuntimeError → Machine → Prop} {m : Machine}

theorem Meets.legal {x : Traced α} (h : Meets L x Q E m) : Legal L (x m).2 m := h.1

/-- Less can be asked of the end. -/
theorem Meets.mono {x : Traced α} {Q' : α → Machine → Prop} {E' : RuntimeError → Machine → Prop}
    (h : Meets L x Q E m) (hQ : ∀ a m', Q a m' → Q' a m') (hE : ∀ e m', E e m' → E' e m') :
    Meets L x Q' E' m := by
  refine ⟨h.1, ?_⟩
  have hend := h.2
  revert hend
  split
  · exact hQ _ _
  · exact hE _ _
  · exact id

@[simp] theorem meets_pure {a : α} : Meets L (pure a) Q E m ↔ Q a m :=
  ⟨fun h => h.2, fun h => ⟨trivial, h⟩⟩

@[simp] theorem meets_exhausted : Meets L (exhausted : Traced α) Q E m ↔ True :=
  ⟨fun _ => trivial, fun _ => ⟨trivial, trivial⟩⟩

@[simp] theorem meets_read {f : Machine → α} : Meets L (read f) Q E m ↔ Q (f m) m :=
  ⟨fun h => h.2, fun h => ⟨trivial, h⟩⟩

@[simp] theorem meets_raise {f : Fault} {line : Nat} :
    Meets L (raise f line : Traced α) Q E m ↔ E ⟨m.file, line, f⟩ m :=
  ⟨fun h => h.2, fun h => ⟨trivial, h⟩⟩

@[simp] theorem meets_act {a : Action} {Q : Bool → Machine → Prop} :
    Meets L (act a) Q E m ↔ L m a ∧ Q (a.perform m).2 (a.after m) :=
  ⟨fun h => ⟨h.1.1, h.2⟩, fun h => ⟨⟨h.1, trivial⟩, h.2⟩⟩

@[simp] theorem meets_bind {x : Traced β} {f : β → Traced α} :
    Meets L (x >>= f) Q E m ↔ Meets L x (fun b m' => Meets L (f b) Q E m') E m := by
  show Meets L (Traced.bind x f) Q E m ↔ _
  unfold Meets Traced.bind
  rcases x m with ⟨b | e | _, as⟩
  · simp [legal_append, replay_append, and_assoc]
  · simp
  · simp

@[simp] theorem meets_always {a : Action} {x : Traced α} :
    Meets L (always a x) Q E m ↔
      Meets L x (fun v m' => L m' a ∧ Q v (a.after m')) (fun e m' => L m' a ∧ E e (a.after m')) m := by
  show Meets L (Traced.always a x) Q E m ↔ _
  unfold Meets Traced.always
  rcases x m with ⟨v | e | _, as⟩ <;> simp [legal_append, replay_append, Legal, replay, and_assoc]

@[simp] theorem meets_attempt {x : Traced α} {Q : Except RuntimeError α → Machine → Prop} :
    Meets L (attempt x) Q E m ↔
      Meets L x (fun a m' => Q (.ok a) m') (fun e m' => Q (.error e) m') m := by
  unfold Meets Traced.attempt
  rcases x m with ⟨v | e | _, as⟩ <;> simp

/-- What is shown of a computation for its actions holds of it when it is carried out for its result. -/
theorem Meets.endsOn {x : Traced α} {P : Machine → Prop} (h : Meets L x Q E m)
    (hQ : ∀ a m', Q a m' → P m') (hE : ∀ e m', E e m' → P m') : (x.run m).EndsOn P := by
  have hend := h.2
  unfold Traced.run
  rcases hx : x m with ⟨a | e | _, as⟩
  · rw [hx] at hend
    exact hQ _ _ hend
  · rw [hx] at hend
    exact hE _ _ hend
  · trivial

/-- A computation that ends with a result leaves the machine that its actions make. -/
theorem run_eq_done {x : Traced α} {a : α} {m' : Machine} (h : x.run m = .done a m') :
    (x m).1 = .done a ∧ m' = replay (x m).2 m := by
  unfold Traced.run at h
  rcases hx : x m with ⟨b | e | _, as⟩
  · rw [hx] at h
    cases h
    exact ⟨rfl, rfl⟩
  · rw [hx] at h
    cases h
  · rw [hx] at h
    cases h

/-- The same for the result alone. -/
theorem Meets.of_done {x : Traced α} {a : α} {m' : Machine} (h : Meets L x Q E m)
    (hx : x.run m = .done a m') : Q a m' := by
  obtain ⟨hresult, hmachine⟩ := run_eq_done hx
  have hend := h.2
  rw [hresult] at hend
  rw [hmachine]
  exact hend

end Laws

end Traced

end Scriptling
