import Scriptling.Proofs.Grammar.Alike.Program
import Scriptling.Proofs.Machine.Simulation
import Scriptling.Proofs.Scope.Keeps

/-!
# Scriptling.Proofs.Machine.Lines -- lines are only carried

A program on other lines does the same, and what it reports is on the other lines (`interpret_reline`). The
machine holds functions, so it is on other lines, too, but nothing that a program can ask of it depends on them.

A line cited in an error is therefore the line of a token. Were it not, then the lines of the tokens could be
kept and that line changed: reading and running what is the same program would have to report another line.

The main result is `lines_are_only_carried`.
-/

set_option autoImplicit false

namespace Scriptling

variable (f : Nat → Nat)

/-! ## Machines on other lines -/

/-- The scope with its functions on other lines. -/
def Frame.reline (frame : Frame) : Frame :=
  { frame with functions := frame.functions.map fun e => (e.1, e.2.reline f) }

/-- The scopes with their functions on other lines. -/
def Scopes.reline (s : Scopes) : Scopes := ⟨s.current.reline f, s.outer.map (Frame.reline f)⟩

/-- The machine with the functions in its scopes on other lines. -/
def Machine.reline (m : Machine) : Machine := { m with scopes := m.scopes.reline f }

/-- The action with the functions and parameters that it defines on other lines. -/
def Action.reline : Action → Action
  | .pass p v => .pass (p.reline f) v
  | .defineFunction g => .defineFunction (g.reline f)
  | a => a

/-- The program on other lines. -/
def Program.reline (p : Program) : Program := ⟨p.file, p.statements.map (Statement.reline f)⟩

/-- The outcome with the line of its error, and its machine, on other lines, and the result changed by `g`. -/
def Outcome.moved {α β : Type} (g : α → β) : Outcome α → Outcome β
  | .done a m => .done (g a) (m.reline f)
  | .raised e m => .raised ⟨e.file, f e.line, e.fault⟩ (m.reline f)
  | .exhausted => .exhausted

theorem Function.name_reline (g : Function) : (g.reline f).name = g.name := by
  cases g
  rfl

namespace Table

variable {α β : Type} (h : α → β) (name : String)

theorem get?_map (t : Table α) :
    get? name (t.map fun e => (e.1, h e.2)) = (t.get? name).map h := by
  induction t with
  | nil => rfl
  | cons e t ih =>
    simp only [List.map_cons, get?, ih]
    split <;> rfl

theorem set_map (a : α) (t : Table α) :
    set name (h a) (t.map fun e => (e.1, h e.2)) = (t.set name a).map fun e => (e.1, h e.2) := by
  induction t with
  | nil => rfl
  | cons e t ih =>
    simp only [List.map_cons, set, ih]
    split <;> rfl

end Table

namespace Scopes

variable (s : Scopes)

theorem binding?_reline (x : String) : (s.reline f).binding? x = s.binding? x := by
  show (s.frames.map (Frame.reline f)).findSome? _ = s.frames.findSome? _
  rw [List.findSome?_map]
  rfl

theorem get_reline (x : String) : (s.reline f).get x = s.get x := by
  rw [get, get, binding?_reline]

theorem function?_reline (x : String) :
    (s.reline f).function? x = (s.function? x).map (Function.reline f) := by
  show (s.frames.map (Frame.reline f)).findSome? _ = (s.frames.findSome? _).map _
  rw [List.findSome?_map, List.map_findSome?]
  congr 1
  funext frame
  exact Table.get?_map _ x frame.functions

theorem isFunctionDefined_reline (x : String) :
    (s.reline f).isFunctionDefined x = s.isFunctionDefined x := by
  rw [isFunctionDefined, isFunctionDefined, function?_reline, Option.isSome_map]

theorem within_reline (kind : ScopeKind) : (s.reline f).within kind = s.within kind := by
  refine reaches_congr kind ?_
  show (s.frames.map (Frame.reline f)).map Frame.kind = _
  rw [List.map_map]
  rfl

theorem leave_reline : (s.reline f).leave = s.leave.reline f := by
  rcases s with ⟨current, outer⟩
  cases outer <;> rfl

theorem defineFunction_reline (g : Function) :
    (s.reline f).defineFunction (g.reline f) = (s.defineFunction g).reline f := by
  unfold defineFunction
  rw [Function.name_reline]
  show Scopes.mk _ _ = Scopes.mk _ _
  congr 1
  show Frame.mk _ _ _ = Frame.mk _ _ _
  congr 1
  exact Table.set_map (Function.reline f) g.name g s.current.functions

theorem updateFrames_reline (x : String) (v : Value) (fs : List Frame) :
    updateFrames x v (fs.map (Frame.reline f)) =
      (updateFrames x v fs).map (List.map (Frame.reline f)) := by
  induction fs with
  | nil => rfl
  | cons frame fs ih =>
    have hbindings : (frame.reline f).bindings = frame.bindings := rfl
    simp only [List.map_cons, updateFrames, ih, hbindings]
    cases frame.bindings.get? x with
    | some b => rfl
    | none =>
      dsimp only
      rw [Option.map_map, Option.map_map]
      rfl

theorem update?_reline (x : String) (v : Value) :
    (s.reline f).update? x v = (s.update? x v).map (Scopes.reline f) := by
  have hframes : updateFrames x v (s.reline f).frames = _ := updateFrames_reline f x v s.frames
  unfold update?
  rw [hframes]
  rcases updateFrames x v s.frames with _ | _ | ⟨frame, fs⟩ <;> rfl

end Scopes

/-- What an action does to a machine on other lines is on other lines. -/
theorem Action.perform_reline (a : Action) (m : Machine) :
    (a.reline f).perform (m.reline f) = ((a.perform m).1.reline f, (a.perform m).2) := by
  cases a with
  | leave => exact congrArg (fun s => ({ m with scopes := s }, true)) (m.scopes.leave_reline f)
  | defineFunction g =>
    exact congrArg (fun s => ({ m with scopes := s }, true)) (m.scopes.defineFunction_reline f g)
  | update x v =>
    have hupdate := m.scopes.update?_reline f x v
    unfold Action.reline Action.perform
    dsimp only
    rw [show (m.reline f).scopes = m.scopes.reline f from rfl, hupdate]
    cases m.scopes.update? x v <;> rfl
  | _ => rfl

/-! ## Programs on other lines -/

namespace Machine

open Effects

section Laws

variable {f} {α β γ δ : Type} {g : α → β} {h : γ → δ} {x : Run α} {y : Run β} {k : α → Run γ}
  {l : β → Run δ}

/-- On a machine on other lines, the one computation does what the other does, on other lines. -/
def Relined (f : Nat → Nat) (g : α → β) (x : Run α) (y : Run β) : Prop :=
  ∀ m : Machine, y (m.reline f) = (x m).moved f g

theorem Relined.bind (hx : Relined f g x y) (hk : ∀ a, Relined f h (k a) (l (g a))) :
    Relined f h (x >>= k) (y >>= l) := by
  intro m
  rw [Run.bind_apply, Run.bind_apply, hx m]
  cases x m with
  | done a m' => exact hk a m'
  | raised e m' => rfl
  | exhausted => rfl

/-- What a computation asks of a machine. -/
theorem relined_read {r : Machine → α} {r' : Machine → β} (hr : ∀ m, r' (m.reline f) = g (r m)) :
    Relined f g (read r) (read r') := by
  intro m
  rw [Run.read_apply, Run.read_apply, hr]
  rfl

theorem relined_act (a : Action) : Relined f id (act a) (act (a.reline f)) := by
  intro m
  show Outcome.done ((a.reline f).perform (m.reline f)).2 ((a.reline f).perform (m.reline f)).1 = _
  rw [Action.perform_reline]
  rfl

theorem Relined.always (hx : Relined f g x y) (a : Action) :
    Relined f g (always a x) (always (a.reline f) y) := by
  intro m
  show Run.finally_ _ y _ = Outcome.moved f g (Run.finally_ _ x m)
  unfold Run.finally_
  rw [hx m]
  cases x m with
  | done b m' => exact congrArg (Outcome.done (g b)) (congrArg Prod.fst (a.perform_reline f m'))
  | raised e m' => exact congrArg (Outcome.raised _) (congrArg Prod.fst (a.perform_reline f m'))
  | exhausted => rfl

end Laws

/-- A program and the same on other lines. -/
def relining : Simulation Run Run where
  line := f
  Place := Unit
  under _ p := p
  Matches _ _ _ g x y := Relined f g x y
  matches_pure _ _ := rfl
  matches_bind := Relined.bind
  matches_exhausted _ := rfl
  matches_raise _ _ _ := rfl
  matches_binding? _ x := relined_read fun m => m.scopes.binding?_reline f x
  matches_get _ x := relined_read fun m => m.scopes.get_reline f x
  matches_function? _ x := relined_read fun m => m.scopes.function?_reline f x
  matches_isFunctionDefined _ x := relined_read fun m => m.scopes.isFunctionDefined_reline f x
  matches_promise _ := relined_read fun _ => rfl
  matches_within _ kind := relined_read fun m => m.scopes.within_reline f (exitScope kind)
  matches_define _ x b := relined_act (.define x b)
  matches_pass _ q v := relined_act (.pass q v)
  matches_update _ x v := relined_act (.update x v)
  matches_defineFunction _ g := relined_act (.defineFunction g)
  matches_inScope kind hx := (relined_act (.enter kind)).bind fun _ => hx.always .leave
  matches_inCall result hx := (relined_act (.start result)).bind fun _ => hx.always .stop
  matches_printText _ _ _ n text := (relined_act (.write text)).bind fun complete => by
    cases complete
    · exact fun _ => rfl
    · exact fun _ => rfl

theorem relined_execute (n : Nat) (s : Statement) :
    Relined f id (execute n s) (execute n (s.reline f)) :=
  ((relining f).evaluate_execute evaluate execute (fun _ => rfl) (fun _ => rfl) (fun _ _ => rfl)
    (fun _ _ _ _ h => h) n).2 () s

/-- Interpreted on other lines, a program does the same, on other lines. -/
theorem interpret_reline (n : Nat) (p : Program) (m : Machine) :
    interpret n (p.reline f) (m.reline f) = (interpret n p m).moved f id := by
  have hload : Relined f id (act (.load p.file)) (act (.load p.file)) := relined_act (.load p.file)
  have heach : Relined f id (each (execute n) p.statements)
      (each (execute n) (p.statements.map (Statement.reline f))) :=
    (relining f).each (fun _ => relined_execute f n) () p.statements
  exact hload.bind (fun _ => heach) m

/-! ## Lines of tokens -/

/-- Keeps the lines in the list and changes all others. -/
def keeping (lines : List Nat) (n : Nat) : Nat := if n ∈ lines then n else n + 1

variable {ts ts' : List Lexeme}

/-- A line that is kept is in the list. -/
theorem mem_of_keeping {lines : List Nat} {n : Nat} (h : keeping lines n = n) : n ∈ lines := by
  unfold keeping at h
  split at h
  · assumption
  · omega

/-- What keeps the lines of the tokens keeps all lines in what is read from them. -/
theorem parse_kept {f : Nat → Nat} (h : ∀ l ∈ ts, f l.line = l.line) :
    (Grammar.parse ts).reline f = Grammar.parse ts := by
  have hkept : ts.map (Lexeme.reline f) = ts.map id :=
    List.map_inj_left.2 fun l hl => congrArg (Lexeme.mk l.token) (h l hl)
  rw [← Grammar.parse_reline, hkept, List.map_id]

theorem parse_keeping (ts : List Lexeme) :
    Grammar.parse ts = (Grammar.parse ts).reline (keeping (ts.map Lexeme.line)) :=
  (parse_kept fun _ hl => if_pos (List.mem_map_of_mem hl)).symm

/-- The line of a syntax error is that of a token. -/
theorem line_of_syntaxError {e : SyntaxError} (he : e ∈ (Grammar.parse ts).errors) :
    ∃ l ∈ ts, l.line = e.line := by
  have hkept : (Grammar.parse ts).errors.map id =
      (Grammar.parse ts).errors.map (SyntaxError.mapLine (keeping (ts.map Lexeme.line))) := by
    rw [List.map_id]
    exact congrArg Grammar.Outcome.errors (parse_keeping ts)
  exact List.mem_map.1 (mem_of_keeping (congrArg SyntaxError.line (List.map_inj_left.1 hkept e he)).symm)

/-- The line of a fault is that of a token. -/
theorem line_of_runtimeError {n : Nat} {file : String} {out : Output} {e : RuntimeError} {m : Machine}
    (h : interpret n ⟨file, (Grammar.parse ts).statements⟩ (initial out) = .raised e m) :
    ∃ l ∈ ts, l.line = e.line := by
  have hkept : Program.reline (keeping (ts.map Lexeme.line)) ⟨file, (Grammar.parse ts).statements⟩ =
      ⟨file, (Grammar.parse ts).statements⟩ :=
    congrArg (Program.mk file) (congrArg Grammar.Outcome.statements (parse_keeping ts)).symm
  have hrun := interpret_reline (keeping (ts.map Lexeme.line)) n
    ⟨file, (Grammar.parse ts).statements⟩ (initial out)
  rw [hkept, h] at hrun
  have hsame : Outcome.raised e m = _ := h.symm.trans hrun
  rw [Outcome.moved, Outcome.raised.injEq] at hsame
  exact List.mem_map.1 (mem_of_keeping (congrArg RuntimeError.line hsame.1).symm)

/-! ## Layout -/

/-- The same tokens on other lines are read as the same, but for the lines. -/
theorem parse_sameTokens (h : ts.map Lexeme.token = ts'.map Lexeme.token) :
    (Grammar.parse ts).reline (fun _ => 0) = (Grammar.parse ts').reline fun _ => 0 := by
  have htokens (ls : List Lexeme) :
      ls.map (Lexeme.reline fun _ => 0) = (ls.map Lexeme.token).map fun t => ⟨t, 0⟩ := by
    rw [List.map_map]
    rfl
  rw [← Grammar.parse_reline, ← Grammar.parse_reline, htokens, htokens, h]

/-- **Lines are only carried.** Tokens on other lines are read as the same statements and the same errors, on
the other lines. A program on other lines has, on a fresh machine, the same outcome with the same output, and
the fault, if there is one, is on the other line. So how the tokens are laid out does not matter to what is
read, nor to what is done, but for the lines that are reported. And no other lines occur in what is read, nor in
a fault, than those of the tokens: what keeps these keeps all lines of the statements, and each error is on the
line of a token. -/
theorem lines_are_only_carried :
    (∀ (f : Nat → Nat) (ts : List Lexeme),
      Grammar.parse (ts.map (Lexeme.reline f)) = (Grammar.parse ts).reline f) ∧
    (∀ (f : Nat → Nat) (n : Nat) (p : Program) (out : Output),
      interpret n (p.reline f) (initial out) = (interpret n p (initial out)).moved f id) ∧
    (∀ ts ts' : List Lexeme, ts.map Lexeme.token = ts'.map Lexeme.token →
      (Grammar.parse ts).reline (fun _ => 0) = (Grammar.parse ts').reline (fun _ => 0) ∧
      ∀ (n : Nat) (file : String) (out : Output),
        (interpret n ⟨file, (Grammar.parse ts).statements⟩ (initial out)).moved (fun _ => 0) id =
          (interpret n ⟨file, (Grammar.parse ts').statements⟩ (initial out)).moved (fun _ => 0) id) ∧
    ∀ ts : List Lexeme,
      (∀ f : Nat → Nat, (∀ l ∈ ts, f l.line = l.line) → (Grammar.parse ts).reline f = Grammar.parse ts) ∧
      (∀ e ∈ (Grammar.parse ts).errors, ∃ l ∈ ts, l.line = e.line) ∧
      ∀ (n : Nat) (file : String) (out : Output) (e : RuntimeError) (m : Machine),
        interpret n ⟨file, (Grammar.parse ts).statements⟩ (initial out) = .raised e m →
        ∃ l ∈ ts, l.line = e.line := by
  refine ⟨Grammar.parse_reline, fun f n p out => interpret_reline f n p (initial out),
    fun ts ts' h => ⟨parse_sameTokens h, fun n file out => ?_⟩,
    fun ts => ⟨fun f hf => parse_kept hf, fun e he => line_of_syntaxError he,
      fun n file out e m h => line_of_runtimeError h⟩⟩
  have hstatements := congrArg (Program.mk file)
    (congrArg Grammar.Outcome.statements (parse_sameTokens h))
  rw [← interpret_reline, ← interpret_reline]
  exact congrArg (fun p => interpret n p (initial out)) hstatements

/-- `print x;` on three lines and on one line, where there is no `x`, and a `print` that is left alone. -/
theorem missing_name_is_on_its_line :
    let apart : List Lexeme := [⟨.keyword .print_, 3⟩, ⟨.identifier "x", 5⟩, ⟨.mark .semicolon, 6⟩]
    let together : List Lexeme := [⟨.keyword .print_, 1⟩, ⟨.identifier "x", 1⟩, ⟨.mark .semicolon, 1⟩]
    let alone : List Lexeme := [⟨.keyword .print_, 4⟩]
    apart.map Lexeme.token = together.map Lexeme.token ∧
      (Grammar.parse apart).reline (fun _ => 0) = (Grammar.parse together).reline (fun _ => 0) ∧
      (Grammar.parse apart).reline (fun n => if n < 7 then n else 0) = Grammar.parse apart ∧
      (∃ e m, interpret 5 ⟨"", (Grammar.parse apart).statements⟩ (initial (.empty none)) = .raised e m ∧
        ∃ l ∈ apart, l.line = e.line) ∧
      ∃ e ∈ (Grammar.parse alone).errors, ∃ l ∈ alone, l.line = e.line := by
  intro apart together alone
  have htokens : apart.map Lexeme.token = together.map Lexeme.token := rfl
  have hfault : ∃ m, interpret 5 ⟨"", (Grammar.parse apart).statements⟩ (initial (.empty none)) =
      .raised ⟨"", 5, .undefinedVariable⟩ m := ⟨_, rfl⟩
  have herror : ⟨.endOfInput .expression, 4⟩ ∈ (Grammar.parse alone).errors := List.mem_singleton.2 rfl
  obtain ⟨m, hfault⟩ := hfault
  obtain ⟨-, -, hlayout, hlines⟩ := lines_are_only_carried
  exact ⟨htokens, (hlayout _ _ htokens).1, (hlines apart).1 _ (by decide),
    ⟨_, m, hfault, (hlines apart).2.2 _ _ _ _ _ hfault⟩, _, herror, (hlines alone).2.1 _ herror⟩

end Machine

end Scriptling
