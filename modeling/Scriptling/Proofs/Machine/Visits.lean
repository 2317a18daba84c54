import Scriptling.Proofs.Machine.Exits
import Scriptling.Proofs.Trace.Noted

/-!
# Scriptling.Proofs.Machine.Visits -- exits are judged by where they stand

The machine looks for what an exit leaves among the scopes, which are the caller's, too, and for the type of
a result among the calls under way. Here the language is carried out once more, with a note of each
statement that is executed: the context it stands in, which is passed on from the text of the program alone,
and the machine it is begun on. The main result, `exits_judged_by_place`, is that the two always agree.

* `Visited.execute` -- statements, carried out with notes; a call passes on the function whose body it runs.
* `visiting` -- the discipline: each note is of a statement that stands so in one of the programs, on a
  machine that its context describes (`Placed`).
* `answerFor` -- how a `return` is checked against a given type.
-/

set_option autoImplicit false

namespace Scriptling

open Effects Machine

/-! ## Notes on contained computations -/

namespace Noted

variable {ν α β : Type} {F : Fault → Prop} {K : Function → Prop} {P : ν → Prop} {c : Context}
  {R : α → Prop} {S : β → Prop}

/-- The computation is contained, and begun on a machine as that asks for it takes only notes that satisfy
`P`. -/
structure Guarded (F : Fault → Prop) (K : Function → Prop) (P : ν → Prop) (c : Context)
    (R : α → Prop) (x : Noted ν α) : Prop where
  contained : Contained F K c R x.forget
  notes : ∀ m, c.Describes m → m.Stocked F K → x.Notes P m

theorem guarded_quietly {x : Run α} (hx : Contained F K c R x) : Guarded F K P c R (quietly x) :=
  ⟨hx, fun _ _ _ => notes_quietly x⟩

theorem Guarded.noting {note : Machine → ν} {x : Noted ν α} (hx : Guarded F K P c R x)
    (h : ∀ m, c.Describes m → m.Stocked F K → P (note m)) : Guarded F K P c R (noting note x) :=
  ⟨hx.contained, fun m hm hK => (hx.notes m hm hK).noting (h m hm hK)⟩

theorem Guarded.bind {x : Noted ν β} {f : β → Noted ν α} (hx : Guarded F K P c S x)
    (hf : ∀ b, S b → Guarded F K P c R (f b)) : Guarded F K P c R (x >>= f) where
  contained := by
    rw [forget_bind]
    exact hx.contained.bind fun b hb => (hf b hb).contained
  notes m hm hK := by
    refine (hx.notes m hm hK).bind fun b m' hb => ?_
    have hends := hx.contained m hm hK
    rw [hb] at hends
    obtain ⟨hS, hnesting, hK'⟩ : S b ∧ m.Settled F K m' := hends
    exact (hf b hS).notes m' (hm.of_sameNesting hnesting) hK'

/-- An action at the end takes no note. -/
theorem notes_act_always {a : Action} {b : Action} {x : Noted ν α} {m : Machine}
    (hx : x.Notes P (a.after m)) : Notes P (act a >>= fun _ => always b x) m :=
  (notes_quietly _).bind fun _ _ hdone => by
    cases hdone
    exact hx

theorem Guarded.inScope {x : Noted ν α} (kind : ScopeKind) (hx : Guarded F K P (c.enter kind) R x) :
    Guarded F K P c R (inScope kind x) where
  contained := by
    have hforget : (Effects.inScope kind x).forget = Effects.inScope kind x.forget :=
      plain.map_inScope kind x
    rw [hforget]
    exact hx.contained.inScope kind
  notes m hm hK := notes_act_always (hx.notes _ (hm.enter kind) (hK.enter kind))

theorem Guarded.inCall {x : Noted ν α} (result : ValueType)
    (hx : Guarded F K P (c.start result) R x) : Guarded F K P c R (inCall result x) where
  contained := by
    have hforget : (Effects.inCall result x).forget = Effects.inCall result x.forget :=
      plain.map_inCall result x
    rw [hforget]
    exact hx.contained.inCall result
  notes m hm hK := notes_act_always (hx.notes _ (hm.start result) ⟨hK.knows, hK.values⟩)

theorem Guarded.attempt {x : Noted ν α} (hx : Guarded F K P c R x) :
    Guarded F K P c Anything (attempt x) :=
  ⟨hx.contained.attempt, hx.notes⟩

end Noted

/-- Contained computations all of whose notes satisfy `P`. -/
def guarding {ν : Type} {F : Fault → Prop} (hF : ∀ f, f ≠ .returnOutsideFunction → F f)
    (K : Function → Prop) (P : ν → Prop) : Discipline (Noted ν) where
  Place := Context
  enter := Context.enter
  start := Context.start
  Known := K
  Faulty := F
  Raises := Context.Raises F
  Exits := Context.Exits
  Holds c _ R x := Noted.Guarded F K P c R x
  holds_pure h := Noted.guarded_quietly ((containment hF K).holds_pure h)
  holds_bind := Noted.Guarded.bind
  holds_mono hx h := ⟨(containment hF K).holds_mono hx.contained h, hx.notes⟩
  holds_exhausted := Noted.guarded_quietly (containment hF K).holds_exhausted
  holds_raise line hf := Noted.guarded_quietly ((containment hF K).holds_raise line hf)
  holds_binding? c x := Noted.guarded_quietly ((containment hF K).holds_binding? c x)
  holds_get c x := Noted.guarded_quietly ((containment hF K).holds_get c x)
  holds_function? c x := Noted.guarded_quietly ((containment hF K).holds_function? c x)
  holds_isFunctionDefined c x :=
    Noted.guarded_quietly ((containment hF K).holds_isFunctionDefined c x)
  holds_promise c := Noted.guarded_quietly ((containment hF K).holds_promise c)
  holds_within c kind := Noted.guarded_quietly ((containment hF K).holds_within c kind)
  holds_load c file := Noted.guarded_quietly ((containment hF K).holds_load c file)
  holds_define c x _ hb := Noted.guarded_quietly ((containment hF K).holds_define c x hb)
  holds_pass c q _ hv := Noted.guarded_quietly ((containment hF K).holds_pass c q hv)
  holds_update c x _ hv := Noted.guarded_quietly ((containment hF K).holds_update c x hv)
  holds_write c text := Noted.guarded_quietly ((containment hF K).holds_write c text)
  holds_defineFunction c _ hf :=
    Noted.guarded_quietly ((containment hF K).holds_defineFunction c hf)
  holds_inScope := Noted.Guarded.inScope
  holds_inCall := Noted.Guarded.inCall
  faulty_of_ne := (containment hF K).faulty_of_ne
  raises_of_faulty := (containment hF K).raises_of_faulty
  exits_next := (containment hF K).exits_next
  exits_leaveCall := (containment hF K).exits_leaveCall
  exits_plain := (containment hF K).exits_plain
  exits_conditional := (containment hF K).exits_conditional
  exits_loop := (containment hF K).exits_loop

/-! ## Visits -/

/-- A statement that is executed: the context it stands in, and the machine it is begun on. -/
structure Visit where
  context : Context
  statement : Statement
  machine : Machine

namespace Visited

mutual

/-- Evaluates an expression in time `n`, with the visits on the way. -/
def evaluate : Nat → Expr → Noted Visit Value
  | 0, _ => exhausted
  | n + 1, e => expressionWithin (evaluate n) (fun f => execute n (.body f)) e

/-- Executes a statement that stands in a context in time `n`, with the visits on the way. -/
def execute : Nat → Context → Statement → Noted Visit Flow
  | 0, _, _ => exhausted
  | n + 1, c, s =>
    .noting (fun m => ⟨c, s, m⟩) (statement (evaluate n) (execute n (c.inside s)) n s)

end

/-- Interprets a program in time `n`, with the visits on the way. -/
def interpret (n : Nat) (p : Program) : Noted Visit Unit := program (execute n .top) p

/-- Interprets programs one after another on one machine, also after a fault, each in time `n`, with the
visits on the way. -/
def session (n : Nat) : List Program → Noted Visit Unit
  | [] => pure ()
  | p :: ps => do
    let _ ← Noted.attempt (interpret n p)
    session n ps

/-- It is the same computation, with visits noted or not. -/
theorem forget_evaluate_execute (n : Nat) :
    (∀ e, (evaluate n e).forget = Machine.evaluate n e) ∧
      ∀ c s, (execute n c s).forget = Machine.execute n s := by
  induction n with
  | zero => exact ⟨fun _ => rfl, fun _ _ => rfl⟩
  | succ n ih =>
    have he : Noted.plain.onExpr (evaluate n) = Machine.evaluate n := funext ih.1
    have hs (c : Context) : Noted.plain.onStatement (execute n c) = Machine.execute n :=
      funext (ih.2 c)
    constructor
    · intro e
      have h := Noted.plain.map_expressionWithin (evaluate n) (fun f => execute n (.body f)) e
      simp only [he, hs, expressionWithin_const] at h
      exact h
    · intro c s
      have h := Noted.plain.map_statement (evaluate n) (execute n (c.inside s)) n s
      rw [he, hs] at h
      exact h

theorem forget_interpret (n : Nat) (p : Program) :
    (interpret n p).forget = Machine.interpret n p := by
  have hs : Noted.plain.onStatement (execute n .top) = Machine.execute n :=
    funext ((forget_evaluate_execute n).2 .top)
  rw [Machine.interpret, ← hs]
  exact Noted.plain.map_program (execute n .top) p

theorem forget_session (n : Nat) (ps : List Program) :
    (session n ps).forget = Machine.session n ps := by
  induction ps with
  | nil => rfl
  | cons p ps ih =>
    rw [session, Noted.forget_bind, ih, Machine.session, ← forget_interpret]
    rfl

/-! ## Visits are of statements as they stand -/

variable {ps : List Program}

/-- The function is declared in one of the programs, at any depth. -/
def Declared (ps : List Program) (f : Function) : Prop :=
  ∃ p ∈ ps, ∃ c, p.Stands c (.func f)

/-- A fault that can be raised in functions. -/
def Inside (f : Fault) : Prop := f ≠ .returnOutsideFunction

/-- The statement stands so in one of the programs, and its context describes the machine, in whose scopes
lie functions of the programs and no other values than there are. -/
structure Placed (ps : List Program) (v : Visit) : Prop where
  stands : ∃ p ∈ ps, p.Stands v.context v.statement
  describes : v.context.Describes v.machine
  stocked : v.machine.Stocked Inside (Declared ps)

/-- The discipline of visits to the statements of the programs. -/
def visiting (ps : List Program) : Discipline (Noted Visit) :=
  guarding (F := Inside) (fun _ hf => hf) (Declared ps) (Placed ps)

/-- The place of the statements in a body is the context that they stand in. -/
theorem inside_eq (c : Context) (s : Statement) : (visiting ps).inside c s = c.inside s := by
  cases s <;> rfl

theorem visiting_evaluate_execute (n : Nat) :
    (∀ c e, (visiting ps).Holds c (visiting ps).Sound (evaluate n e)) ∧
      ∀ c s, (∃ p ∈ ps, p.Stands c s) → (visiting ps).Holds c c.Exits (execute n c s) := by
  -- On the time. What stands in a body stands in the program, so the visits on the way are placed.
  induction n with
  | zero =>
    exact ⟨fun _ _ => (visiting ps).holds_exhausted, fun _ _ _ => (visiting ps).holds_exhausted⟩
  | succ n ih =>
    refine ⟨fun c e => (visiting ps).expressionWithin ih.1 (fun f hf s hs => ?_) e,
      fun c s hstands => ?_⟩
    · obtain ⟨p, hp, _, hf⟩ := hf
      exact ih.2 (.body f) s ⟨p, hp, .body hf hs⟩
    · obtain ⟨p, hp, hs⟩ := hstands
      have hstatement : (visiting ps).Holds c c.Exits
          (statement (evaluate n) (execute n (c.inside s)) n s) := by
        refine (visiting ps).statement ih.1 n (fun f hf => ⟨p, hp, c, hf ▸ hs⟩) fun t ht => ?_
        rw [inside_eq]
        exact ih.2 (c.inside s) t ⟨p, hp, .inside hs ht⟩
      exact Noted.Guarded.noting hstatement fun m hm hK => ⟨⟨p, hp, hs⟩, hm, hK⟩

theorem visiting_interpret (n : Nat) {p : Program} (hp : p ∈ ps) :
    (visiting ps).Holds Context.top Anything (interpret n p) :=
  (visiting ps).program fun s hs =>
    (visiting ps).holds_mono ((visiting_evaluate_execute n).2 .top s ⟨p, hp, .top hs⟩)
      fun _ _ => trivial

theorem visiting_session (n : Nat) {qs : List Program} (hqs : ∀ p ∈ qs, p ∈ ps) :
    (visiting ps).Holds Context.top Anything (session n qs) := by
  induction qs with
  | nil => exact (visiting ps).holds_pure trivial
  | cons p qs ih =>
    rw [List.forall_mem_cons] at hqs
    exact (Noted.Guarded.attempt (visiting_interpret n hqs.1)).bind fun _ _ => ih hqs.2

/-- What a visited statement raises, or anything that is executed on the way, is what its context admits. -/
theorem Placed.raises {v : Visit} (hv : Placed ps v) {n : Nat} {e : RuntimeError} {m : Machine}
    (h : Machine.execute n v.statement v.machine = .raised e m) :
    v.context.Raises Inside e.fault := by
  have hguarded : Noted.Guarded Inside (Declared ps) (Placed ps) v.context v.context.Exits
      (execute n v.context v.statement) :=
    (visiting_evaluate_execute n).2 v.context v.statement hv.stands
  have hends := hguarded.contained v.machine hv.describes hv.stocked
  rw [(forget_evaluate_execute n).2, h] at hends
  exact hends.1

end Visited

namespace Machine

/-- The visits of programs that are run one after another on a fresh machine, each in time `n`. -/
def visits (n : Nat) (ps : List Program) (out : Output) : List Visit :=
  (Visited.session n ps (initial out)).2

theorem visits_placed {n : Nat} {ps : List Program} {out : Output} {v : Visit}
    (hv : v ∈ visits n ps out) : Visited.Placed ps v := by
  have h : (Visited.visiting ps).Holds Context.top Anything (Visited.session n ps) :=
    Visited.visiting_session n fun _ hp => hp
  exact Noted.Guarded.notes h _ (Context.top_describes_initial out) (.initial _ _ out) v hv

/-! ## What exits and returns do -/

/-- Executes `return` where a result of the type is promised: there must be a value if and only if one is
promised, and it must be of the type. -/
def answerFor {M : Type → Type} [Effects M] (eval : Expr → M Value) (t : ValueType)
    (value : Option Expr) (line : Nat) : M Flow :=
  match value with
  | none => if t = .void then pure (.leaveCall .void) else raise .missingReturnValue line
  | some e =>
    if t = .void then raise .unexpectedReturnValue line
    else do
      let v ← checked eval e
      if v.type? = some t then pure (.leaveCall v) else raise .wrongReturnType line

variable {c : Context} {m : Machine}

theorem leave_of_describes (hm : c.Describes m) (kind : Exit) (line : Nat) :
    (leave kind line : Run Flow) m =
      if c.places kind then .done (exitFlow kind) m
      else .raised ⟨m.file, line, .misplacedExit⟩ m := by
  rw [leave, Run.bind_apply, Run.read_apply, ← hm.within kind]
  dsimp only
  split <;> rfl

theorem answer_of_describes (hm : c.Describes m) (eval : Expr → Run Value) (value : Option Expr)
    (line : Nat) :
    answer eval value line m =
      match c.promise with
      | none => .raised ⟨m.file, line, .returnOutsideFunction⟩ m
      | some t => answerFor eval t value line m := by
  rw [answer, Run.bind_apply, Run.read_apply, hm.promise]
  cases c.promise with
  | none => rfl
  | some t => cases value <;> rfl

/-- **Exits are judged by where they stand.** Let programs be run one after another on a fresh machine, and
let each statement that is executed be noted, which changes nothing of the run. Each of them stands in one
of the programs. An exit leaves what it is to leave if it stands, up to the innermost function, in a body of
a loop or of a conditional, and else raises that it is misplaced, at its own line. A `return` that stands in
no function raises that. One that stands in a function is checked against the type that the innermost
function around it promises, and neither it nor what is executed for its value raises that a `return` is
outside of functions. -/
theorem exits_judged_by_place (n : Nat) (ps : List Program) (out : Output) :
    (Visited.session n ps).forget = session n ps ∧
    ∀ v ∈ visits n ps out,
      (∃ p ∈ ps, p.Stands v.context v.statement) ∧
      (∀ kind line, v.statement = .exit kind line → ∀ time,
        execute (time + 1) v.statement v.machine =
          if v.context.places kind then .done (exitFlow kind) v.machine
          else .raised ⟨v.machine.file, line, .misplacedExit⟩ v.machine) ∧
      ∀ value line, v.statement = .return_ value line → ∀ time,
        (execute (time + 1) v.statement v.machine =
          match v.context.promise with
          | none => .raised ⟨v.machine.file, line, .returnOutsideFunction⟩ v.machine
          | some t => answerFor (evaluate time) t value line v.machine) ∧
        ∀ t, v.context.promise = some t → ∀ e m,
          execute (time + 1) v.statement v.machine = .raised e m →
          e.fault ≠ .returnOutsideFunction := by
  refine ⟨Visited.forget_session n ps, fun v hv => ?_⟩
  have hplaced := visits_placed hv
  refine ⟨hplaced.stands, ?_, ?_⟩
  · intro kind line hv time
    rw [hv]
    exact leave_of_describes hplaced.describes kind line
  · intro value line hv time
    constructor
    · rw [hv]
      exact answer_of_describes hplaced.describes (evaluate time) value line
    · intro t ht e m he
      rcases hplaced.raises he with hinside | hnone
      · exact hinside
      · rw [ht] at hnone
        cases hnone

/-- A program that calls, in a loop, a function whose body is a `break` and no loop. -/
def straying : Program := ⟨"straying", [
  .func ⟨"f", .void, [], ⟨[.exit .break_ 1], 1⟩, 1⟩,
  .loop (.literal (.bool true) 2) ⟨[.expr (.call "f" [] 2) 2], 2⟩ 2]⟩

/-- The loop that the `break` is executed in is not one that it stands in: it is misplaced. -/
theorem straying_misplaced :
    ∃ v ∈ visits 20 [straying] (.empty none),
      v.machine.scopes.frames.map Frame.kind = [.call, .loop, .plain] ∧
      v.context = .body ⟨"f", .void, [], ⟨[.exit .break_ 1], 1⟩, 1⟩ ∧
      execute 1 v.statement v.machine =
        .raised ⟨"straying", 1, .misplacedExit⟩ v.machine := by
  have hvisits : (visits 20 [straying] (.empty none)).map (fun v =>
      (v.context, v.statement, v.machine.file, v.machine.scopes.frames.map Frame.kind)) = [
        (.top, .func ⟨"f", .void, [], ⟨[.exit .break_ 1], 1⟩, 1⟩, "straying", [.plain]),
        (.top, .loop (.literal (.bool true) 2) ⟨[.expr (.call "f" [] 2) 2], 2⟩ 2, "straying",
          [.plain]),
        (⟨true, false, none⟩, .expr (.call "f" [] 2) 2, "straying", [.loop, .plain]),
        (⟨false, false, some .void⟩, .exit .break_ 1, "straying", [.call, .loop, .plain])] :=
    rfl
  -- The last visit is the one asked for.
  obtain ⟨v, hv, heq⟩ : ∃ v ∈ visits 20 [straying] (.empty none),
      (v.context, v.statement, v.machine.file, v.machine.scopes.frames.map Frame.kind) =
        (⟨false, false, some .void⟩, .exit .break_ 1, "straying", [.call, .loop, .plain]) := by
    refine List.mem_map.1 ?_
    rw [hvisits]
    simp
  simp only [Prod.mk.injEq] at heq
  obtain ⟨hcontext, hstatement, hfile, hkinds⟩ := heq
  refine ⟨v, hv, hkinds, hcontext, ?_⟩
  have hexit := ((exits_judged_by_place 20 [straying] (.empty none)).2 v hv).2.1 .break_ 1
    hstatement 0
  rw [hcontext, hfile] at hexit
  exact hexit

end Machine

end Scriptling
