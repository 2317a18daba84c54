import Scriptling.Proofs.Machine.Lines
import Scriptling.Proofs.Syntax.Nodes
import Scriptling.Proofs.Trace.Basic
import Mathlib.Data.Nat.Pairing

/-!
# Scriptling.Proofs.Machine.Units -- where the faults of several programs are put

Programs that are run one after another share the machine, and with it their functions: a program can call a
function of an earlier one, and the fault is raised at a node of that one. Its error has the line of the node. But
the file that it names is that of the program under way, because the machine has room for one file name, which is
the name of the program taken up last.

Which program has the node is read off the lines. Lines are only carried, so they can carry the number of the
program as well (`Program.marked`), and that number comes out with the line of the error (`Machine.raiser`).
Likewise the name of the file is only carried, and no other can come out (`file_of_raised`).

The main result is `faults_name_the_file_under_way`.
-/

set_option autoImplicit false

namespace Scriptling

/-! ## Programs on other lines -/

namespace Program

variable {f g : Nat → Nat}

theorem reline_congr {p : Program} (h : ∀ n ∈ p.lines, f n = g n) : p.reline f = p.reline g := by
  rw [reline, reline, ← Statement.relineAll_eq_map, ← Statement.relineAll_eq_map,
    Statement.relineAll_congr p.statements h]

theorem reline_reline (p : Program) (f g : Nat → Nat) : (p.reline f).reline g = p.reline (g ∘ f) := by
  simp only [reline, ← Statement.relineAll_eq_map, Statement.relineAll_relineAll]

theorem reline_id (p : Program) : p.reline id = p := by
  rw [reline, ← Statement.relineAll_eq_map, Statement.relineAll_id]

/-- The program with all its nodes marked: what is on line `n` is on line `Nat.pair i n`. -/
def marked (i : Nat) (p : Program) : Program := p.reline (Nat.pair i)

/-- The line without its mark. -/
def unmark (n : Nat) : Nat := n.unpair.2

theorem unmark_pair (i n : Nat) : unmark (Nat.pair i n) = n := by
  rw [unmark, Nat.unpair_pair]

theorem reline_unmark (i : Nat) (p : Program) : (p.marked i).reline unmark = p := by
  have hcomp : unmark ∘ Nat.pair i = id := funext (unmark_pair i)
  rw [marked, reline_reline, hcomp, reline_id]

/-- The programs, each marked with its number. -/
def markedAll (ps : List Program) : List Program := ps.mapIdx marked

theorem map_reline_unmark (ps : List Program) : (markedAll ps).map (reline unmark) = ps := by
  refine List.ext_getElem? fun i => ?_
  simp [markedAll, Function.comp_def, reline_unmark]

/-- The marked lines of the nodes of all programs. -/
def markedLines (ps : List Program) : List Nat :=
  (ps.mapIdx fun i p => p.lines.map (Nat.pair i)).flatten

/-- A marked line tells the program and the line. -/
theorem mem_markedLines {ps : List Program} {l : Nat} :
    l ∈ markedLines ps ↔ ∃ i p n, ps[i]? = some p ∧ n ∈ p.lines ∧ Nat.pair i n = l := by
  simp only [markedLines, List.mem_flatten, List.mem_mapIdx]
  constructor
  · rintro ⟨_, ⟨i, hi, rfl⟩, hl⟩
    obtain ⟨n, hn, rfl⟩ := List.mem_map.1 hl
    exact ⟨i, ps[i], n, List.getElem?_eq_getElem hi, hn, rfl⟩
  · rintro ⟨i, p, n, hp, hn, rfl⟩
    obtain ⟨hi, rfl⟩ := List.getElem?_eq_some_iff.1 hp
    exact ⟨_, ⟨i, hi, rfl⟩, List.mem_map_of_mem hn⟩

/-- What keeps the marked lines keeps the marked programs. -/
theorem reline_marked {ps : List Program} (hf : ∀ l ∈ markedLines ps, f l = l) {i : Nat} {p : Program}
    (hp : ps[i]? = some p) : (p.marked i).reline f = p.marked i := by
  rw [marked, reline_reline]
  exact reline_congr fun n hn => hf _ (mem_markedLines.2 ⟨i, p, n, hp, hn, rfl⟩)

theorem map_reline_marked {ps : List Program} (hf : ∀ l ∈ markedLines ps, f l = l) :
    (markedAll ps).map (reline f) = markedAll ps := by
  refine List.ext_getElem? fun i => ?_
  rw [List.getElem?_map, markedAll, List.getElem?_mapIdx]
  cases hp : ps[i]? with
  | none => rfl
  | some p => exact congrArg some (reline_marked hf hp)

end Program

/-! ## The name of the file -/

/-- The outcome with another file in its error and on its machine, and the result changed by `g`. -/
def Outcome.refiled {α β : Type} (file : String) (g : α → β) : Outcome α → Outcome β
  | .done a m => .done (g a) { m with file := file }
  | .raised e m => .raised { e with file := file } { m with file := file }
  | .exhausted => .exhausted

/-- Only taking up a program has to do with the file. -/
theorem Action.perform_refiled {a : Action} (ha : ∀ name, a ≠ .load name) (file : String) (m : Machine) :
    a.perform { m with file := file } = ({ (a.perform m).1 with file := file }, (a.perform m).2) := by
  cases a with
  | load name => exact absurd rfl (ha name)
  | update x v =>
    unfold Action.perform
    dsimp only
    cases m.scopes.update? x v <;> rfl
  | _ => rfl

namespace Machine

open Effects

section Laws

variable {α β γ δ : Type} {file : String} {g : α → β} {h : γ → δ} {x : Run α} {y : Run β}
  {k : α → Run γ} {l : β → Run δ} {a : Action}

/-- On a machine with another file, the one computation does what the other does, save for the file. -/
def Refiled (file : String) (g : α → β) (x : Run α) (y : Run β) : Prop :=
  ∀ m : Machine, y { m with file := file } = (x m).refiled file g

theorem Refiled.bind (hx : Refiled file g x y) (hk : ∀ a, Refiled file h (k a) (l (g a))) :
    Refiled file h (x >>= k) (y >>= l) := by
  intro m
  rw [Run.bind_apply, Run.bind_apply, hx m]
  cases x m with
  | done a m' => exact hk a m'
  | raised e m' => rfl
  | exhausted => rfl

theorem refiled_act (ha : ∀ name, a ≠ .load name) : Refiled file id (act a) (act a) := by
  intro m
  show Outcome.done (a.perform { m with file := file }).2 (a.perform { m with file := file }).1 = _
  rw [Action.perform_refiled ha]
  rfl

theorem Refiled.always (hx : Refiled file g x y) (ha : ∀ name, a ≠ .load name) :
    Refiled file g (always a x) (always a y) := by
  intro m
  show Run.finally_ _ y _ = Outcome.refiled file g (Run.finally_ _ x m)
  unfold Run.finally_
  rw [hx m]
  cases x m with
  | done b m' => exact congrArg (Outcome.done (g b)) (congrArg Prod.fst (Action.perform_refiled ha file m'))
  | raised e m' => exact congrArg (Outcome.raised _) (congrArg Prod.fst (Action.perform_refiled ha file m'))
  | exhausted => rfl

end Laws

/-- A program on a machine with one file and with another. -/
def refiling (file : String) : Simulation Run Run where
  line := id
  Place := Unit
  under _ p := p
  Matches _ _ _ g x y := Refiled file g x y
  matches_pure _ _ := rfl
  matches_bind := Refiled.bind
  matches_exhausted _ := rfl
  matches_raise _ _ _ := rfl
  matches_binding? _ _ _ := rfl
  matches_get _ _ _ := rfl
  matches_function? _ x m := by
    rw [funext Function.reline_id, Run.read_apply, Run.read_apply]
    show Outcome.done (m.scopes.function? x) _ = .done ((m.scopes.function? x).map fun f => f) _
    rw [Option.map_id']
  matches_isFunctionDefined _ _ _ := rfl
  matches_promise _ _ := rfl
  matches_within _ _ _ := rfl
  matches_define _ _ _ := refiled_act (by simp)
  matches_pass _ _ _ := refiled_act (by simp)
  matches_update _ _ _ := refiled_act (by simp)
  matches_defineFunction _ f := by
    rw [Function.reline_id]
    exact refiled_act (by simp)
  matches_inScope _ hx := (refiled_act (by simp)).bind fun _ => hx.always (by simp)
  matches_inCall _ hx := (refiled_act (by simp)).bind fun _ => hx.always (by simp)
  matches_printText _ _ _ _ _ := (refiled_act (by simp)).bind fun complete => by
    cases complete
    · exact fun _ => rfl
    · exact fun _ => rfl

theorem refiled_each (file : String) (n : Nat) (ss : List Statement) :
    Refiled file id (each (execute n) ss) (each (execute n) ss) := by
  have hexecute := ((refiling file).evaluate_execute evaluate execute (fun _ => rfl) (fun _ => rfl)
    (fun _ _ => rfl) (fun _ _ _ _ h => h) n).2
  have heach : Refiled file id (each (execute n) ss) (each (execute n) (ss.map (Statement.reline id))) :=
    (refiling file).each hexecute () ss
  rwa [← Statement.relineAll_eq_map, Statement.relineAll_id] at heach

/-- A fault is put in the file of the program under way. -/
theorem file_of_raised {n : Nat} {p : Program} {m m' : Machine} {e : RuntimeError}
    (h : interpret n p m = .raised e m') : e.file = p.file := by
  -- The machine has the name of the file already when the statements begin, and changes it to itself.
  have hload : interpret n p m = each (execute n) p.statements { m with file := p.file } := rfl
  have hsame := refiled_each p.file n p.statements { m with file := p.file }
  rw [hload] at h
  have hraised : Outcome.raised e m' = _ := h.symm.trans (hsame.trans (congrArg _ h))
  rw [Outcome.refiled, Outcome.raised.injEq] at hraised
  exact congrArg RuntimeError.file hraised.1

/-! ## Sessions -/

/-- Programs that are run on other lines, one after another, do the same, on other lines. -/
theorem session_reline (f : Nat → Nat) (n : Nat) (ps : List Program) (m : Machine) :
    session n (ps.map (Program.reline f)) (m.reline f) = (session n ps m).moved f id := by
  induction ps generalizing m with
  | nil => rfl
  | cons p ps ih =>
    have hattempt : Run.attempt (interpret n (p.reline f)) (m.reline f) =
        (Run.attempt (interpret n p) m).moved f
          (Except.mapError fun e => ⟨e.file, f e.line, e.fault⟩) := by
      unfold Run.attempt
      rw [interpret_reline]
      cases interpret n p m <;> rfl
    rw [List.map_cons, session, session, Run.bind_apply, Run.bind_apply, hattempt]
    cases Run.attempt (interpret n p) m with
    | done r m' => exact ih m'
    | raised e m' => rfl
    | exhausted => rfl

/-- What keeps the programs keeps the line of a fault that the last of them ends with. -/
theorem line_kept {f : Nat → Nat} {n : Nat} {before : List Program} {p : Program} {out : Output}
    {m m' : Machine} {e : RuntimeError} (hbefore : before.map (Program.reline f) = before)
    (hp : p.reline f = p) (hm : session n before (initial out) = .done () m)
    (h : interpret n p m = .raised e m') : f e.line = e.line := by
  have hsession := session_reline f n before (initial out)
  have hinitial : (initial out).reline f = initial out := rfl
  rw [hbefore, hinitial, hm] at hsession
  have hmachine : m = m.reline f := (Outcome.done.inj hsession).2
  have hrun := interpret_reline f n p m
  rw [hp, ← hmachine, h] at hrun
  exact (congrArg RuntimeError.line (Outcome.raised.inj hrun).1).symm

/-- The number of the program that has the node at which the last program raises a fault, all of them being run
one after another on a fresh machine. It is found by marking the programs. -/
def raiser (n : Nat) (before : List Program) (p : Program) (out : Output) : Option Nat :=
  match session n (Program.markedAll before) (initial out) with
  | .done _ m =>
    match interpret n (p.marked before.length) m with
    | .raised e _ => some e.line.unpair.1
    | _ => none
  | _ => none

variable {n : Nat} {before : List Program} {p : Program} {out : Output} {m m' : Machine} {e : RuntimeError}

/-- Marked programs do what the programs do, and the fault has its line and a mark. -/
theorem marked_of_raised (hm : session n before (initial out) = .done () m)
    (h : interpret n p m = .raised e m') :
    ∃ m₁ e₁ m₁', session n (Program.markedAll before) (initial out) = .done () m₁ ∧
      interpret n (p.marked before.length) m₁ = .raised e₁ m₁' ∧ e.line = Program.unmark e₁.line := by
  have hsession := session_reline Program.unmark n (Program.markedAll before) (initial out)
  have hinitial : (initial out).reline Program.unmark = initial out := rfl
  rw [Program.map_reline_unmark, hinitial, hm] at hsession
  cases hmarked : session n (Program.markedAll before) (initial out) with
  | done u m₁ =>
    rw [hmarked] at hsession
    have hmachine : m = m₁.reline Program.unmark := (Outcome.done.inj hsession).2
    have hrun := interpret_reline Program.unmark n (p.marked before.length) m₁
    rw [Program.reline_unmark, ← hmachine, h] at hrun
    cases hraised : interpret n (p.marked before.length) m₁ with
    | raised e₁ m₁' =>
      rw [hraised] at hrun
      exact ⟨m₁, e₁, m₁', rfl, hraised, congrArg RuntimeError.line (Outcome.raised.inj hrun).1⟩
    | done u m₁' =>
      rw [hraised] at hrun
      cases hrun
    | exhausted =>
      rw [hraised] at hrun
      cases hrun
  | raised e₁ m₁ =>
    rw [hmarked] at hsession
    cases hsession
  | exhausted =>
    rw [hmarked] at hsession
    cases hsession

/-- The fault is raised at a node of one of the programs. -/
theorem raiser_of_raised (hm : session n before (initial out) = .done () m)
    (h : interpret n p m = .raised e m') :
    ∃ i q, raiser n before p out = some i ∧ (before ++ [p])[i]? = some q ∧ e.line ∈ q.lines := by
  obtain ⟨m₁, e₁, m₁', hmarked, hraised, hline⟩ := marked_of_raised hm h
  have hkeeping : ∀ l ∈ Program.markedLines (before ++ [p]),
      keeping (Program.markedLines (before ++ [p])) l = l := fun _ hl => if_pos hl
  have hbefore : (Program.markedAll before).map
      (Program.reline (keeping (Program.markedLines (before ++ [p])))) = Program.markedAll before := by
    have hall := Program.map_reline_marked hkeeping
    rw [Program.markedAll, List.mapIdx_append, List.map_append] at hall
    exact List.append_inj_left' hall (by simp)
  have hp := Program.reline_marked hkeeping (i := before.length) (p := p) (by simp)
  obtain ⟨i, q, l, hq, hl, hpair⟩ :=
    Program.mem_markedLines.1 (mem_of_keeping (line_kept hbefore hp hmarked hraised))
  refine ⟨i, q, ?_, hq, ?_⟩
  · rw [raiser, hmarked]
    dsimp only
    rw [hraised]
    show some e₁.line.unpair.1 = some i
    rw [← hpair, Nat.unpair_pair]
  · rwa [hline, ← hpair, Program.unmark_pair]

/-- **Faults are put in the file of the program under way.** Let programs be run one after another on a fresh
machine, each to its end or to a fault, and then one more, which raises a fault. The fault is raised at a node of
one of these programs, and its error has a line of that one. The file that the error names is that of the last
program; so it is the right one if the node is of the last program itself. -/
theorem faults_name_the_file_under_way (hm : session n before (initial out) = .done () m)
    (h : interpret n p m = .raised e m') :
    e.file = p.file ∧ ∃ i q, raiser n before p out = some i ∧ (before ++ [p])[i]? = some q ∧
      e.line ∈ q.lines ∧ (i = before.length → e.file = q.file) := by
  have hfile := file_of_raised h
  obtain ⟨i, q, hraiser, hq, hline⟩ := raiser_of_raised hm h
  refine ⟨hfile, i, q, hraiser, hq, hline, ?_⟩
  rintro rfl
  have hpq : p = q := by simpa using hq
  rw [hfile, hpq]

/-- A program with a function that divides by zero on its second line. -/
def declaring : Program := ⟨"declaring", [
  .func ⟨"f", .void, [], ⟨[.print (.binary (.arithmetic .div) (.literal (.int 1) 2) (.literal (.int 0) 2) 2)
    [] 2], 1⟩, 1⟩]⟩

/-- A program, of another file, that calls the function. -/
def calling : Program := ⟨"calling", [.expr (.call "f" [] 1) 1]⟩

/-- A program that prints a variable that is not there. -/
def failing : Program := ⟨"failing", [.print (.name "x" 3) [] 3]⟩

/-- The division is in the first of two files that are read and run, and the error names the second one. -/
theorem fault_in_a_function_of_another_file :
    Program.ofText "f: func() \x7b\n  print 1 / 0;\n\x7d" "declaring" = .ok declaring ∧
    Program.ofText "f();" "calling" = .ok calling ∧
    (∃ m m', session 20 [declaring] (initial (.empty none)) = .done () m ∧
      interpret 20 calling m = .raised ⟨"calling", 2, .divisionByZero⟩ m') ∧
    raiser 20 [declaring] calling (.empty none) = some 0 ∧
    [declaring, calling][0].file = "declaring" := by
  refine ⟨by cbv, by cbv, ⟨_, _, rfl, rfl⟩, ?_, rfl⟩
  show some (Nat.pair 0 2).unpair.1 = some 0
  rw [Nat.unpair_pair]

/-- The third of three programs fails at a node of its own, and the error names its file. -/
theorem fault_in_the_program_under_way :
    ∃ m e m', session 20 [declaring, calling] (initial (.empty none)) = .done () m ∧
      interpret 20 failing m = .raised e m' ∧ e.line = 3 ∧
      raiser 20 [declaring, calling] failing (.empty none) = some 2 ∧ e.file = "failing" := by
  have hruns : ∃ m e m', session 20 [declaring, calling] (initial (.empty none)) = .done () m ∧
      interpret 20 failing m = .raised e m' ∧ e.line = 3 := ⟨_, _, _, rfl, rfl, rfl⟩
  have hraiser : raiser 20 [declaring, calling] failing (.empty none) = some 2 := by
    show some (Nat.pair 2 3).unpair.1 = some 2
    rw [Nat.unpair_pair]
  obtain ⟨m, e, m', hm, h, hline⟩ := hruns
  obtain ⟨-, i, q, hi, hq, -, hown⟩ := faults_name_the_file_under_way hm h
  cases Option.some.inj (hi.symm.trans hraiser)
  cases Option.some.inj hq
  exact ⟨m, e, m', hm, h, hline, hraiser, hown rfl⟩

end Machine

end Scriptling
