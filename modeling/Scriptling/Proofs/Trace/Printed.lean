import Scriptling.Proofs.Trace.Noted

/-!
# Scriptling.Proofs.Trace.Printed -- computations that note what they print

A text is printed while statements are under way: a print statement and, where it stands in a function, the
statements that have called the function, among them perhaps another print statement. Here the language is
carried out with notes of the texts that are printed, each with the statements under way at that moment.

* `Write` -- a text that is printed, and the statements under way.
* `Printed` -- computations that note them; `Printed.interpret`: whole programs.
* `Printed.forget_interpret` -- without the notes, it is the same computation.
-/

set_option autoImplicit false

namespace Scriptling

open Effects

/-! ## What is printed -/

/-- A text that is printed, and the statements under way then, the innermost first. -/
structure Write where
  statements : List Statement
  text : String

/-- The line of a print statement. -/
def Statement.printLine? : Statement → Option Nat
  | .print _ _ line => some line
  | _ => none

namespace Write

/-- The line of the innermost print statement under way. -/
def line? (w : Write) : Option Nat := w.statements.findSome? Statement.printLine?

/-- The bytes of texts that are printed one after another. -/
def bytes : List Write → ByteArray
  | [] => .empty
  | w :: ws => w.text.toUTF8 ++ bytes ws

theorem bytes_append (ws us : List Write) : bytes (ws ++ us) = bytes ws ++ bytes us := by
  induction ws with
  | nil => exact ByteArray.empty_append.symm
  | cons w ws ih => rw [List.cons_append, bytes, bytes, ih, ByteArray.append_assoc]

/-- Of the texts, byte `n + 1` is in one that a print statement on the line prints, and no other print statement
is under way within that one. -/
def Exceeds (n line : Nat) (ws : List Write) : Prop :=
  ∃ before w after, ws = before ++ w :: after ∧ (bytes before).size ≤ n ∧
    n < (bytes before).size + w.text.utf8ByteSize ∧ w.line? = some line

/-- Texts that exceed the limit have more bytes than it allows. -/
theorem Exceeds.lt_size {n line : Nat} {ws : List Write} (h : Exceeds n line ws) :
    n < (bytes ws).size := by
  obtain ⟨before, w, after, rfl, -, hlt, -⟩ := h
  have hw : w.text.toUTF8.size = w.text.utf8ByteSize := String.size_toByteArray
  rw [bytes_append, bytes, ByteArray.size_append, ByteArray.size_append]
  omega

theorem Exceeds.append {n line : Nat} {ws : List Write} (h : Exceeds n line ws) (us : List Write) :
    Exceeds n line (ws ++ us) := by
  obtain ⟨before, w, after, rfl, hle, hlt, hline⟩ := h
  exact ⟨before, w, after ++ us, by simp, hle, hlt, hline⟩

/-- Texts that are printed before use up a part of the limit. -/
theorem Exceeds.after {n line : Nat} {ws us : List Write} (hws : (bytes ws).size ≤ n)
    (h : Exceeds (n - (bytes ws).size) line us) : Exceeds n line (ws ++ us) := by
  obtain ⟨before, w, after, rfl, hle, hlt, hline⟩ := h
  refine ⟨ws ++ before, w, after, (List.append_assoc _ _ _).symm, ?_, ?_, hline⟩
  · rw [bytes_append, ByteArray.size_append]
    omega
  · rw [bytes_append, ByteArray.size_append]
    omega

end Write

/-! ## Computations that note what is printed -/

/-- A computation that is carried out among the statements under way and notes what it prints. -/
def Printed (α : Type) : Type := List Statement → Noted Write α

namespace Printed

variable {α β : Type}

/-- What is noted of an action. -/
def noted (statements : List Statement) : Action → List Write
  | .write text => [⟨statements, text⟩]
  | _ => []

instance : Monad Printed where
  pure a := fun _ => pure a
  bind x f := fun statements => x statements >>= fun a => f a statements

instance : Effects Printed where
  exhausted := fun _ => exhausted
  read f := fun _ => read f
  act a := fun statements m => ((act a : Run Bool) m, noted statements a)
  raise f line := fun _ => raise f line
  always a x := fun statements => always a (x statements)

/-- A computation that is part of a statement. -/
def within (s : Statement) (x : Printed α) : Printed α := fun statements => x (s :: statements)

mutual

/-- Evaluates an expression in time `n`, noting what is printed. -/
def evaluate : Nat → Expr → Printed Value
  | 0, _ => exhausted
  | n + 1, e => Machine.expression (evaluate n) (execute n) e

/-- Executes a statement in time `n`, noting what is printed. -/
def execute : Nat → Statement → Printed Flow
  | 0, _ => exhausted
  | n + 1, s => within s (Machine.statement (evaluate n) (execute n) n s)

end

/-- Interprets a program in time `n`, noting what is printed. -/
def interpret (n : Nat) (p : Program) : Printed Unit := Machine.program (execute n) p

/-! ### The same computation -/

/-- Carrying out among given statements, and without notes. -/
def plain (statements : List Statement) : Interpretation Printed Run where
  map x := (x statements).forget
  map_pure _ := rfl
  map_bind x f := Noted.forget_bind (x statements) fun a => f a statements
  map_exhausted := rfl
  map_read _ := rfl
  map_act _ := rfl
  map_raise _ _ := rfl
  map_always _ _ := rfl

theorem forget_evaluate_execute (n : Nat) :
    (∀ statements e, (evaluate n e statements).forget = Machine.evaluate n e) ∧
      ∀ statements s, (execute n s statements).forget = Machine.execute n s := by
  induction n with
  | zero => exact ⟨fun _ _ => rfl, fun _ _ => rfl⟩
  | succ n ih =>
    have he (statements : List Statement) :
        (plain statements).onExpr (evaluate n) = Machine.evaluate n := funext (ih.1 statements)
    have hs (statements : List Statement) :
        (plain statements).onStatement (execute n) = Machine.execute n := funext (ih.2 statements)
    constructor
    · intro statements e
      have h := (plain statements).map_expression (evaluate n) (execute n) e
      rw [he, hs] at h
      exact h
    · intro statements s
      have h := (plain (s :: statements)).map_statement (evaluate n) (execute n) n s
      rw [he, hs] at h
      exact h

/-- It is the same computation, with what is printed noted or not. -/
theorem forget_interpret (n : Nat) (p : Program) :
    (interpret n p []).forget = Machine.interpret n p := by
  have hs : (plain []).onStatement (execute n) = Machine.execute n :=
    funext ((forget_evaluate_execute n).2 [])
  rw [Machine.interpret, ← hs]
  exact (plain []).map_program (execute n) p

end Printed

end Scriptling
