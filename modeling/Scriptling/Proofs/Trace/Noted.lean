import Scriptling.Proofs.Trace.Basic

/-!
# Scriptling.Proofs.Trace.Noted -- computations that take notes

What happens in a run is often no change of the state: that a statement is reached, or on which machine. A
computation that takes notes says so on the way. The notes are known however the computation ends, and
without them it is the same computation.

* `Noted` -- an outcome and the notes taken on the way to it.
* `Noted.noting` -- a computation that begins with a note.
* `Noted.plain` -- the constructs of the language, without the notes.
-/

set_option autoImplicit false

namespace Scriptling

/-- A computation carried out for its outcome and for the notes taken on the way. -/
def Noted (ν α : Type) : Type := Machine → Outcome α × List ν

namespace Noted

variable {ν α β : Type}

/-- Goes on with a result, and with the notes. -/
def bind (x : Noted ν α) (f : α → Noted ν β) : Noted ν β := fun m =>
  match x m with
  | (.done a m', ns) => ((f a m').1, ns ++ (f a m').2)
  | (.raised e m', ns) => (.raised e m', ns)
  | (.exhausted, ns) => (.exhausted, ns)

instance : Monad (Noted ν) where
  pure a := fun m => (.done a m, [])
  bind := bind

/-- The computation without the notes. -/
def forget (x : Noted ν α) : Run α := fun m => (x m).1

/-- What is carried out without a note. -/
def quietly (x : Run α) : Noted ν α := fun m => (x m, [])

instance : Effects (Noted ν) where
  exhausted := quietly Effects.exhausted
  read f := quietly (Effects.read f)
  act a := quietly (Effects.act a)
  raise f line := quietly (Effects.raise f line)
  always a x := fun m => (Run.finally_ a.after x.forget m, (x m).2)

/-- Takes a note of the machine that the computation begins on. -/
def noting (note : Machine → ν) (x : Noted ν α) : Noted ν α := fun m =>
  ((x m).1, note m :: (x m).2)

/-- A raised fault becomes a result, after the same notes. -/
def attempt (x : Noted ν α) : Noted ν (Except RuntimeError α) := fun m =>
  (Run.attempt x.forget m, (x m).2)

/-- What goes on with a result begins on the same machine, whatever was noted. -/
theorem forget_bind (x : Noted ν α) (f : α → Noted ν β) :
    (x >>= f).forget = x.forget >>= fun a => (f a).forget := by
  funext m
  show ((Noted.bind x f) m).1 = _
  rw [Run.bind_apply]
  unfold Noted.bind forget
  rcases x m with ⟨a | e | _, ns⟩ <;> rfl

/-- Carrying out without notes what was carried out with them. -/
def plain : Interpretation (Noted ν) Run where
  map := forget
  map_pure _ := rfl
  map_bind := forget_bind
  map_exhausted := rfl
  map_read _ := rfl
  map_act _ := rfl
  map_raise _ _ := rfl
  map_always _ _ := rfl

/-! ## All notes -/

/-- All notes that the computation takes, begun on the machine, satisfy `P`. -/
def Notes (P : ν → Prop) (x : Noted ν α) (m : Machine) : Prop := ∀ n ∈ (x m).2, P n

section Notes

variable {P : ν → Prop} {m : Machine}

theorem notes_quietly (x : Run α) : Notes P (quietly x) m := List.forall_mem_nil _

theorem Notes.noting {note : Machine → ν} {x : Noted ν α} (h : P (note m)) (hx : x.Notes P m) :
    Notes P (noting note x) m :=
  List.forall_mem_cons.2 ⟨h, hx⟩

/-- The notes of what goes on are asked for where the first computation ends with a result. -/
theorem Notes.bind {x : Noted ν β} {f : β → Noted ν α} (hx : x.Notes P m)
    (hf : ∀ b m', x.forget m = .done b m' → (f b).Notes P m') : Notes P (x >>= f) m := by
  show ∀ n ∈ (Noted.bind x f m).2, P n
  unfold Noted.bind
  unfold Notes at hx
  rcases hxm : x m with ⟨b | e | _, ns⟩
  · rw [hxm] at hx
    exact List.forall_mem_append.2 ⟨hx, hf b _ (congrArg Prod.fst hxm)⟩
  · rw [hxm] at hx
    exact hx
  · rw [hxm] at hx
    exact hx

end Notes

end Noted

end Scriptling
