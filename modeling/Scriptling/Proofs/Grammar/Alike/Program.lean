import Scriptling.Proofs.Grammar.Alike.Statement
import Scriptling.Proofs.Grammar.Segments

/-!
# Scriptling.Proofs.Grammar.Alike.Program -- whole programs on other lines

What a whole reading comes to does not depend on where the lines break. If the lines of the tokens are changed
by `f`, the same statements and the same errors come out, on the lines that `f` takes theirs to
(`parse_reline`).
-/

set_option autoImplicit false

namespace Scriptling.Grammar

variable {f : Nat → Nat} {n : Nat}

/-- A statement on other lines, and the tokens after it. -/
theorem statement_reline {ts : List Lexeme} (hts : ts.length ≤ n) :
    statement n (ts.map (Lexeme.reline f)) =
      Reading.moved f (Statement.reline f)
        (Reading.left (statement n ts) |>.map (Lexeme.reline f)) (statement n ts) := by
  obtain ⟨front, hfront, hread⟩ := alike_statement (f := f) (d := 0) n ts hts
  have hagain := hread (Reading.left (statement n ts) |>.map (Lexeme.reline f)) (sameNext_map f _)
  rw [← List.map_append, ← hfront, Nat.zero_add] at hagain
  exact hagain (by rwa [List.length_map])

theorem synchronize_reline (ts : List Lexeme) :
    synchronize (ts.map (Lexeme.reline f)) = (synchronize ts).map (Lexeme.reline f) := by
  induction ts with
  | nil => rfl
  | cons l ts ih =>
    by_cases hl : l.token = .mark .semicolon
    · rw [List.map_cons, synchronize, synchronize, if_pos hl]
      exact if_pos hl
    · rw [List.map_cons, synchronize, synchronize, if_neg hl, ← ih]
      exact if_neg hl

/-- A round that fails takes or drops a token, so the bound of the next round suffices. -/
theorem length_synchronize {ts rest : List Lexeme} {e : SyntaxError} (hts : ts.length ≤ n + 1)
    (hnil : ts ≠ []) (hr : statement (n + 1) ts = .error e rest) :
    (synchronize rest).length ≤ n := by
  obtain ⟨consumed, dropped, hsplit, hne, -⟩ := accounted_of_error 0 hts hnil hr
  have hpos := List.length_pos_iff.2 hne
  rw [hsplit, List.length_append] at hts
  omega

/-- The same statements and errors on other lines. -/
def Outcome.reline (f : Nat → Nat) (o : Outcome) : Outcome :=
  ⟨o.statements.map (Statement.reline f), o.errors.map (SyntaxError.mapLine f)⟩

/-- What was read before is on other lines, too, and so is the last token. -/
theorem statements_reline (lastLine : Nat) (done : List Statement) (errors : List SyntaxError)
    (ts : List Lexeme) (hts : ts.length ≤ n) :
    statements (f lastLine) n (done.map (Statement.reline f)) (errors.map (SyntaxError.mapLine f))
        (ts.map (Lexeme.reline f)) =
      (statements lastLine n done errors ts).reline f := by
  have hend (done : List Statement) (errors : List SyntaxError) :
      Outcome.mk (done.map (Statement.reline f)).reverse (errors.map (SyntaxError.mapLine f)).reverse =
        Outcome.reline f ⟨done.reverse, errors.reverse⟩ := by
    rw [Outcome.reline, List.map_reverse, List.map_reverse]
  induction n generalizing done errors ts with
  | zero => exact hend done errors
  | succ n ih =>
    by_cases hnil : ts = []
    · subst hnil
      exact hend done errors
    · have hagain := statement_reline (f := f) hts
      cases hr : statement (n + 1) ts with
      | ok s rest =>
        rw [hr] at hagain
        have hrest := statement_progresses _ _ _ _ hr
        rw [statements_ok hr, statements_ok hagain]
        exact ih (s :: done) errors rest (by omega)
      | error e rest =>
        rw [hr] at hagain
        have hmap : ts.map (Lexeme.reline f) ≠ [] := fun h => hnil (List.map_eq_nil_iff.1 h)
        rw [statements_error hnil hr, statements_error hmap hagain, synchronize_reline,
          SyntaxError.locate_reline]
        exact ih done (_ :: errors) (synchronize rest) (length_synchronize hts hnil hr)

theorem lastLine_reline {ts : List Lexeme} (hts : ts ≠ []) :
    lastLine (ts.map (Lexeme.reline f)) = f (lastLine ts) := by
  rw [lastLine, lastLine, List.getLast?_map, List.getLast?_eq_some_getLast hts]
  rfl

/-- **Lines do not matter to reading.** The same tokens on other lines are the same statements and the same
errors on other lines. -/
theorem parse_reline (f : Nat → Nat) (ts : List Lexeme) :
    parse (ts.map (Lexeme.reline f)) = (parse ts).reline f := by
  by_cases hnil : ts = []
  · subst hnil
    rfl
  · have hread := statements_reline (f := f) (lastLine ts) [] [] ts le_rfl
    rw [← lastLine_reline (f := f) hnil] at hread
    rw [parse, List.length_map]
    exact hread

end Scriptling.Grammar
