import Scriptling.Proofs.Machine.Simulation
import Scriptling.Proofs.Trace.Logic
import Scriptling.Proofs.Trace.Printed

/-!
# Scriptling.Proofs.Machine.FullOutput -- programs whose output becomes full

With room for so many bytes only, a program prints what it prints with room for all, up to the byte that there is
no more room for (`output_stops_at_the_limit`). The run that has room for everything notes what is printed, and
the other one is compared with it step by step, as a simulation: as long as all texts fit, the two do the same on
machines that differ in the room for output alone. Once a text does not fit, the limited run is over, and what
the other one does after that only adds to its notes.

* `Limited` -- how an outcome and its notes become the outcome where there is less room.
* `limiting` -- the simulation.
-/

set_option autoImplicit false

namespace Scriptling

open Effects

/-! ## First parts of bytes -/

section Bytes

variable {a b : ByteArray} {n : Nat}

theorem extract_of_size_le (h : a.size ≤ n) : a.extract 0 n = a := by
  refine ByteArray.ext ?_
  rw [ByteArray.data_extract]
  exact Array.extract_eq_self_of_le h

theorem extract_append_of_size_le (h : a.size ≤ n) :
    (a ++ b).extract 0 n = a ++ b.extract 0 (n - a.size) := by
  rw [ByteArray.extract_append, extract_of_size_le h, Nat.zero_sub]

theorem extract_append_of_le_size (h : n ≤ a.size) : (a ++ b).extract 0 n = a.extract 0 n := by
  rw [ByteArray.extract_append, Nat.zero_sub, Nat.sub_eq_zero_of_le h, ByteArray.extract_same,
    ByteArray.append_empty]

end Bytes

/-! ## Runs with less room -/

/-- The machine with room for so many more bytes. -/
def Machine.withRoom (n : Nat) (m : Machine) : Machine := { m with output := ⟨m.output.bytes, some n⟩ }

/-- Since `m` the texts were printed, with room for everything, and no other program was taken up. -/
structure Machine.Prints (m : Machine) (ws : List Write) (m' : Machine) : Prop where
  file : m'.file = m.file
  output : m'.output = ⟨m.output.bytes ++ Write.bytes ws, none⟩

namespace Machine.Prints

variable {m m' m'' : Machine} {ws us : List Write}

theorem nil (h : m.output.room = none) : m.Prints [] m := by
  refine ⟨rfl, ?_⟩
  rw [Write.bytes, ByteArray.append_empty, ← h]

theorem trans (h : m.Prints ws m') (k : m'.Prints us m'') : m.Prints (ws ++ us) m'' := by
  refine ⟨k.file.trans h.file, ?_⟩
  rw [k.output, h.output, Write.bytes_append, ByteArray.append_assoc]

theorem room (h : m.Prints ws m') : m'.output.room = none := by
  rw [h.output]

theorem bytes (h : m.Prints ws m') : m'.output.bytes = m.output.bytes ++ Write.bytes ws := by
  rw [h.output]

end Machine.Prints

/-- What becomes of an outcome, with room for everything, and of the texts that were printed on the way to it from
`m`, if there is room for `n` bytes there. If the texts fit, it is the same, and less room is left. If they do
not, the first `n` bytes of them are printed, and the print statement that has tried to print one more fails. -/
inductive Limited {α β : Type} (g : α → β) (m : Machine) (n : Nat) :
    Outcome α → List Write → Outcome β → Prop
  | exhausted {ws : List Write} {o' : Outcome β} : Limited g m n .exhausted ws o'
  | done {a : α} {m' : Machine} {ws : List Write} :
    m.Prints ws m' → (Write.bytes ws).size ≤ n →
    Limited g m n (.done a m') ws (.done (g a) (m'.withRoom (n - (Write.bytes ws).size)))
  | raised {e : RuntimeError} {m' : Machine} {ws : List Write} :
    m.Prints ws m' → (Write.bytes ws).size ≤ n →
    Limited g m n (.raised e m') ws (.raised e (m'.withRoom (n - (Write.bytes ws).size)))
  | full {o : Outcome α} {m' : Machine} {ws : List Write} {line : Nat} :
    o.EndsOn (m.Prints ws) → Write.Exceeds n line ws →
    m'.output.bytes = m.output.bytes ++ (Write.bytes ws).extract 0 n →
    Limited g m n o ws (.raised ⟨m.file, line, .outputFailed⟩ m')

section Laws

variable {α β γ δ : Type} {g : α → β} {h : γ → δ} {m m' : Machine} {n : Nat} {o : Outcome α}
  {o' : Outcome β} {ws us : List Write}

theorem Limited.endsOn (h : Limited g m n o ws o') : o.EndsOn (m.Prints ws) := by
  cases h with
  | exhausted => trivial
  | done h _ => exact h
  | raised h _ => exact h
  | full h _ _ => exact h

/-- What comes after texts that fit has the room that they have left. -/
theorem Limited.after (hus : Limited g m' (n - (Write.bytes ws).size) o us o') (hws : m.Prints ws m')
    (hroom : (Write.bytes ws).size ≤ n) : Limited g m n o (ws ++ us) o' := by
  have hsize : (Write.bytes (ws ++ us)).size = (Write.bytes ws).size + (Write.bytes us).size := by
    rw [Write.bytes_append, ByteArray.size_append]
  cases hus with
  | exhausted => exact .exhausted
  | done hus hroom' =>
    rw [Nat.sub_sub, ← hsize]
    exact .done (hws.trans hus) (by omega)
  | raised hus hroom' =>
    rw [Nat.sub_sub, ← hsize]
    exact .raised (hws.trans hus) (by omega)
  | full hus hexceeds hbytes =>
    rw [hws.file]
    refine .full (hus.mono fun _ => hws.trans) (hexceeds.after hroom) ?_
    rw [hbytes, hws.bytes, ByteArray.append_assoc, Write.bytes_append, extract_append_of_size_le hroom]

/-- Among statements under way, the one computation does where there is less room what the other one does. -/
def Limits (statements : List Statement) (g : α → β) (x : Printed α) (y : Run β) : Prop :=
  ∀ m n, m.output.room = none →
    Limited g m n (x statements m).1 (x statements m).2 (y (m.withRoom n))

variable {statements : List Statement} {x : Printed α} {y : Run β} {k : α → Printed γ} {l : β → Run δ}

theorem Limits.bind (hx : Limits statements g x y) (hk : ∀ a, Limits statements h (k a) (l (g a))) :
    Limits statements h (x >>= k) (y >>= l) := by
  intro m n hm
  have hfirst := hx m n hm
  rw [Run.bind_apply]
  show Limited h m n (Noted.bind (x statements) (fun a => k a statements) m).1
    (Noted.bind (x statements) (fun a => k a statements) m).2 _
  unfold Noted.bind
  revert hfirst
  generalize x statements m = first, y (m.withRoom n) = o'
  rcases first with ⟨o, ws⟩
  intro hfirst
  cases hfirst with
  | exhausted => exact .exhausted
  | done hws hroom => exact (hk _ _ _ hws.room).after hws hroom
  | raised hws hroom => exact .raised hws hroom
  | full hends hexceeds hbytes =>
    -- The limited run is over; the other one goes on, if it has come to a result.
    cases o with
    | done a m' =>
      have hrest := (hk a m' 0 (Machine.Prints.room hends)).endsOn
      refine .full (hrest.mono fun _ => Machine.Prints.trans hends) (hexceeds.append _) ?_
      rw [hbytes, Write.bytes_append, extract_append_of_le_size (Nat.le_of_lt hexceeds.lt_size)]
    | raised e m' => exact .full hends hexceeds hbytes
    | exhausted => exact .exhausted

/-- What a computation asks of a machine has nothing to do with its output. -/
theorem limits_read {r : Machine → α} {r' : Machine → β} (hr : ∀ m n, r' (m.withRoom n) = g (r m)) :
    Limits statements g (read r) (read r') := by
  intro m n hm
  rw [Run.read_apply, hr]
  exact .done (.nil hm) (Nat.zero_le n)

end Laws

/-! ### Actions -/

/-- The actions that have nothing to do with the output, nor with the file. -/
def Action.Silent : Action → Prop
  | .load _ | .write _ => False
  | _ => True

section Actions

variable {α β : Type} {g : α → β} {m m' : Machine} {a : Action} {ws : List Write}
  {statements : List Statement} {x : Printed α} {y : Run β}

theorem Action.Silent.noted (ha : a.Silent) : Printed.noted statements a = [] := by
  cases a with
  | write text => cases ha
  | _ => rfl

theorem Action.Silent.output (ha : a.Silent) (m : Machine) : (a.perform m).1.output = m.output := by
  cases a with
  | load file => cases ha
  | write text => cases ha
  | update x v =>
    unfold Action.perform
    cases h : m.scopes.update? x v <;> simp [h]
  | _ => rfl

theorem Action.Silent.prints (ha : a.Silent) (h : m.Prints ws m') :
    m.Prints ws (a.perform m').1 := by
  refine ⟨?_, (ha.output m').trans h.output⟩
  rw [← h.file]
  cases a with
  | load file => cases ha
  | update x v =>
    unfold Action.perform
    cases h : m'.scopes.update? x v <;> simp [h]
  | _ => rfl

theorem Action.Silent.withRoom (ha : a.Silent) (m : Machine) (n : Nat) :
    a.perform (m.withRoom n) = ((a.perform m).1.withRoom n, (a.perform m).2) := by
  cases a with
  | load file => cases ha
  | write text => cases ha
  | update x v =>
    unfold Action.perform Machine.withRoom
    cases h : m.scopes.update? x v <;> simp [h]
  | _ => rfl

theorem limits_act (ha : a.Silent) : Limits statements id (act a) (act a) := by
  intro m n hm
  have hprints : m.Prints [] (a.perform m).1 := ha.prints (.nil hm)
  show Limited id m n (.done (a.perform m).2 (a.perform m).1) (Printed.noted statements a)
    (.done (a.perform (m.withRoom n)).2 (a.perform (m.withRoom n)).1)
  rw [ha.noted, ha.withRoom]
  exact .done hprints (Nat.zero_le n)

theorem Limits.always (hx : Limits statements g x y) (ha : a.Silent) :
    Limits statements g (always a x) (always a y) := by
  intro m n hm
  have hlimited := hx m n hm
  show Limited g m n (Run.finally_ (fun m => (a.perform m).1) (x statements).forget m)
    (x statements m).2 (Run.finally_ (fun m => (a.perform m).1) y (m.withRoom n))
  unfold Run.finally_ Noted.forget
  revert hlimited
  generalize x statements m = first, y (m.withRoom n) = o'
  rcases first with ⟨o, ws⟩
  intro hlimited
  cases hlimited with
  | exhausted => exact .exhausted
  | done hws hroom =>
    dsimp only
    rw [ha.withRoom]
    exact .done (ha.prints hws) hroom
  | raised hws hroom =>
    dsimp only
    rw [ha.withRoom]
    exact .raised (ha.prints hws) hroom
  | full hends hexceeds hbytes =>
    refine .full ?_ hexceeds ((congrArg Output.bytes (ha.output _)).trans hbytes)
    cases o with
    | done b m' => exact ha.prints hends
    | raised e m' => exact ha.prints hends
    | exhausted => trivial

/-- Printing a text is writing it, and failing if that was not possible in full. -/
theorem printText_apply (text : String) (line : Nat) (m : Machine) :
    (Machine.printText text line : Run Unit) m =
      if ((Action.write text).perform m).2 then .done () ((Action.write text).perform m).1
      else .raised ⟨m.file, line, .outputFailed⟩ ((Action.write text).perform m).1 := by
  show (if ((Action.write text).perform m).2 then pure () else raise .outputFailed line : Run Unit)
    ((Action.write text).perform m).1 = _
  split <;> rfl

/-- The text is noted. -/
theorem printText_noted (text : String) (line : Nat) (m : Machine) :
    (Machine.printText text line : Printed Unit) statements m =
      ((Machine.printText text line : Run Unit) m, [⟨statements, text⟩]) := by
  refine Prod.ext (congrFun ((Printed.plain statements).map_printText text line) m) ?_
  show [Write.mk statements text] ++
    ((if ((Action.write text).perform m).2 then pure () else raise .outputFailed line : Printed Unit)
      statements ((Action.write text).perform m).1).2 = _
  split <;> rfl

/-- A text is printed as far as there is room, and the print statement fails if that is not all of it. -/
theorem limits_printText (e : Expr) (es : List Expr) (line : Nat) (text : String) :
    Limits (.print e es line :: statements) id (Machine.printText text line)
      (Machine.printText text line) := by
  intro m n hm
  have hbytes : Write.bytes [⟨.print e es line :: statements, text⟩] = text.toUTF8 := by
    rw [Write.bytes, Write.bytes, ByteArray.append_empty]
  have hsize : text.toUTF8.size = text.utf8ByteSize := String.size_toByteArray
  have hprints : m.Prints [⟨.print e es line :: statements, text⟩]
      { m with output := ⟨m.output.bytes ++ text.toUTF8, none⟩ } := ⟨rfl, by rw [hbytes]⟩
  have hunlimited : (Action.write text).perform m =
      ({ m with output := ⟨m.output.bytes ++ text.toUTF8, none⟩ }, true) := by
    unfold Action.perform Output.write
    rw [hm]
  rw [printText_noted, printText_apply, printText_apply, hunlimited, if_pos rfl]
  by_cases hfits : text.utf8ByteSize ≤ n
  · have hroom : (Write.bytes [⟨.print e es line :: statements, text⟩]).size ≤ n := by
      rwa [hbytes, hsize]
    have hlimited : (Action.write text).perform (m.withRoom n) =
        ({ m with output := ⟨m.output.bytes ++ text.toUTF8, some (n - text.utf8ByteSize)⟩ }, true) := by
      unfold Action.perform Output.write Machine.withRoom
      dsimp only
      rw [if_pos hfits]
    have hdone := Limited.done (g := id) (a := ()) hprints hroom
    rw [hbytes, hsize] at hdone
    rw [hlimited, if_pos rfl]
    exact hdone
  · have hlimited : (Action.write text).perform (m.withRoom n) =
        ({ m with output := ⟨m.output.bytes ++ text.toUTF8.extract 0 n, some 0⟩ }, false) := by
      unfold Action.perform Output.write Machine.withRoom
      dsimp only
      rw [if_neg hfits]
    rw [hlimited, if_neg Bool.false_ne_true]
    refine .full hprints ⟨[], _, [], rfl, Nat.zero_le n, ?_, rfl⟩ (by rw [hbytes])
    show n < 0 + text.utf8ByteSize
    omega

end Actions

/-! ## The simulation -/

/-- A run with room for everything that notes what it prints, and a run with less room. -/
def limiting : Simulation Printed Run where
  line := id
  Place := List Statement
  under s statements := s :: statements
  Matches statements _ _ g x y := Limits statements g x y
  matches_pure a := fun m n hm => .done (.nil hm) (Nat.zero_le n)
  matches_bind := Limits.bind
  matches_exhausted := fun _ _ _ => .exhausted
  matches_raise _ _ := fun m n hm => .raised (.nil hm) (Nat.zero_le n)
  matches_binding? _ _ := limits_read fun _ _ => rfl
  matches_get _ _ := limits_read fun _ _ => rfl
  matches_function? _ x := limits_read fun m _ => by
    show m.scopes.function? x = (m.scopes.function? x).map (Function.reline id)
    rw [funext Function.reline_id]
    exact Option.map_id'.symm
  matches_isFunctionDefined _ _ := limits_read fun _ _ => rfl
  matches_promise _ := limits_read fun _ _ => rfl
  matches_within _ _ := limits_read fun _ _ => rfl
  matches_define _ _ _ := limits_act trivial
  matches_pass _ q v := limits_act (a := .pass q v) trivial
  matches_update _ _ _ := limits_act trivial
  matches_defineFunction _ f := by
    rw [Function.reline_id]
    exact limits_act trivial
  matches_inScope kind hx := (limits_act (a := .enter kind) trivial).bind fun _ =>
    hx.always (a := .leave) trivial
  matches_inCall result hx := (limits_act (a := .start result) trivial).bind fun _ =>
    hx.always (a := .stop) trivial
  matches_printText _ e es n text := limits_printText e es n text

theorem limits_execute (n : Nat) (statements : List Statement) (s : Statement) :
    Limits statements id (Printed.execute n s) (Machine.execute n (s.reline id)) :=
  (limiting.evaluate_execute Printed.evaluate Printed.execute (fun _ => rfl) (fun _ => rfl)
    (fun _ _ => rfl) (fun _ _ _ _ h => h) n).2 statements s

/-! ## Programs -/

/-- Of a computation that ends, the result or the error, and all that is printed by then. -/
def Outcome.ending? {α : Type} : Outcome α → Option (Except RuntimeError α × ByteArray)
  | .done a m => some (.ok a, m.output.bytes)
  | .raised e m => some (.error e, m.output.bytes)
  | .exhausted => none

/-- If nothing was printed before, all that is printed is what was noted. -/
theorem Limited.ending {α : Type} {m : Machine} {n : Nat} {o o' : Outcome α} {ws : List Write}
    {r : Except RuntimeError α} {b : ByteArray} (h : Limited id m n o ws o')
    (hm : m.output.bytes = .empty) (hends : o.ending? = some (r, b)) :
    b = Write.bytes ws ∧ (b.size ≤ n → o'.ending? = some (r, b)) ∧
      (n < b.size → ∃ line, Write.Exceeds n line ws ∧
        o'.ending? = some (.error ⟨m.file, line, .outputFailed⟩, b.extract 0 n)) := by
  have hall {m' : Machine} (hws : m.Prints ws m') : m'.output.bytes = Write.bytes ws := by
    rw [hws.bytes, hm, ByteArray.empty_append]
  cases h with
  | exhausted => cases hends
  | done hws hroom =>
    cases hends
    rw [← hall hws] at hroom
    exact ⟨hall hws, fun _ => rfl, fun h => absurd hroom (by omega)⟩
  | raised hws hroom =>
    cases hends
    rw [← hall hws] at hroom
    exact ⟨hall hws, fun _ => rfl, fun h => absurd hroom (by omega)⟩
  | @full o m' ws line hws hexceeds hbytes =>
    have hb : b = Write.bytes ws := by
      cases o with
      | done a m' =>
        cases hends
        exact hall hws
      | raised e m' =>
        cases hends
        exact hall hws
      | exhausted => cases hends
    subst hb
    rw [hm, ByteArray.empty_append] at hbytes
    have hlt := hexceeds.lt_size
    exact ⟨rfl, fun h => absurd hlt (by omega),
      fun _ => ⟨line, hexceeds, congrArg (fun b => some (_, b)) hbytes⟩⟩

namespace Machine

/-- What a program prints on a fresh machine with room for everything, in time `n`. -/
def writes (n : Nat) (p : Program) : List Write :=
  (Printed.interpret n p [] (initial (.empty none))).2

/-- **Output stops at the limit.** Let a program end, on a fresh machine with room for everything, with a result or
an error, and let the texts that it prints be noted, which changes nothing of the run. What was printed then is
these texts. With room for `n` bytes, the program ends with the same and has printed the same, if that is not
more. Otherwise it has printed the first `n` bytes of that, and has ended with the error that output failed, on the
line of the innermost print statement that was under way when byte `n + 1` was to be printed. -/
theorem output_stops_at_the_limit (time : Nat) (p : Program) (r : Except RuntimeError Unit) (o : ByteArray)
    (h : (interpret time p (initial (.empty none))).ending? = some (r, o)) (n : Nat) :
    (Printed.interpret time p []).forget = interpret time p ∧ o = Write.bytes (writes time p) ∧
      (o.size ≤ n → (interpret time p (initial (.empty (some n)))).ending? = some (r, o)) ∧
      (n < o.size → ∃ line, Write.Exceeds n line (writes time p) ∧
        (interpret time p (initial (.empty (some n)))).ending? =
          some (.error ⟨p.file, line, .outputFailed⟩, o.extract 0 n)) := by
  have hforget := Printed.forget_interpret time p
  -- Once the program has been taken up, its statements are executed on machines that differ in room alone.
  have hlimits := limiting.each (limits_execute time) [] p.statements
  -- The simulation is about trees on other lines, and here the lines are left as they are.
  rw [show p.statements.map (Statement.reline limiting.line) = p.statements from
    (Statement.relineAll_eq_map id _).symm.trans (Statement.relineAll_id _)] at hlimits
  have hlimited : Limited id { initial (.empty none) with file := p.file } n
      (Printed.interpret time p [] (initial (.empty none))).1 (writes time p)
      (interpret time p (initial (.empty (some n)))) :=
    hlimits { initial (.empty none) with file := p.file } n rfl
  refine ⟨hforget, hlimited.ending rfl ?_⟩
  exact (congrArg Outcome.ending? (congrFun hforget _)).trans h

/-- A function that prints on line 2, called in a print statement on line 5. -/
def printing : Program where
  file := "nested"
  statements := [
    .func ⟨"f", .string, [], ⟨[.print (.literal (.string "ab") 2) [] 2,
      .return_ (some (.literal (.string "c") 3)) 3], 1⟩, 1⟩,
    .print (.literal (.string "x") 5) [.call "f" [] 5] 5]

/-- With room for two bytes it is the print statement in the function that fails. -/
theorem printing_stops_in_call :
    ∃ o, (interpret 9 printing (initial (.empty none))).ending? = some (.ok (), o) ∧
      o = Write.bytes (writes 9 printing) ∧
      ∃ line, Write.Exceeds 2 line (writes 9 printing) ∧
        (interpret 9 printing (initial (.empty (some 2)))).ending? =
          some (.error ⟨"nested", line, .outputFailed⟩, o.extract 0 2) := by
  have h : (interpret 9 printing (initial (.empty none))).ending? = some (.ok (), "xab\nc\n".toUTF8) := rfl
  obtain ⟨-, ho, -, hfull⟩ := output_stops_at_the_limit 9 printing _ _ h 2
  exact ⟨_, h, ho, hfull (by decide)⟩

example : (interpret 9 printing (initial (.empty (some 2)))).ending? =
    some (.error ⟨"nested", 2, .outputFailed⟩, "xa".toUTF8) := rfl

example : (interpret 9 printing (initial (.empty (some 4)))).ending? =
    some (.error ⟨"nested", 5, .outputFailed⟩, "xab\n".toUTF8) := rfl

end Machine

end Scriptling
