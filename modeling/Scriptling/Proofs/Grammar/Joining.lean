import Scriptling.Proofs.Grammar.Alike.Program

/-!
# Scriptling.Proofs.Grammar.Joining -- programs one after another

Where tokens are read without an error, what comes after them is read as it would be on its own
(`programs_are_read_apart`). Two facts meet here. Tokens that are read without an error are a way to write the
statements they were read as (`written_of_parse`), and statements are read back whatever follows them, as long
as it is not another branch of a conditional. The rest is read with a bound, with statements before it and as
the end of longer tokens, and none of the three matters to what is made of it (`statements_bound`,
`statements_after`, `lastLine_append`).
-/

set_option autoImplicit false

namespace Scriptling.Grammar

variable {line n m : Nat} {ts us : List Lexeme}

/-! ## Reading without errors -/

/-- Segments that were all kept are their statements, written one after another. -/
theorem lexemes_mem_writtenAll {segments : List Segment}
    (h : ∀ g ∈ segments, ∃ s, ∃ ls ∈ s.written, g = .kept s ls) :
    segments.flatMap Segment.lexemes ∈ Statement.writtenAll (segments.filterMap Segment.statement?) := by
  induction segments with
  | nil => exact Language.nil_mem_one
  | cons g segments ih =>
    rw [List.forall_mem_cons] at h
    obtain ⟨⟨s, ls, hls, rfl⟩, hsegments⟩ := h
    rw [List.flatMap_cons, List.filterMap_cons, Segment.statement?]
    dsimp only
    rw [Statement.writtenAll]
    exact Language.append_mem_mul hls (ih hsegments)

/-- Tokens that are read without an error are a way to write the statements. -/
theorem written_of_parse (h : (parse ts).errors = []) :
    ts ∈ Statement.writtenAll (parse ts).statements := by
  obtain ⟨segments, ⟨hts, hall⟩, hs, he⟩ :=
    statements_segments (lastLine ts) ts.length [] [] ts le_rfl
  have hstatements : (parse ts).statements = segments.filterMap Segment.statement? := hs
  have herrors : segments.filterMap Segment.error? = [] := he.symm.trans h
  rw [hstatements]
  refine hts ▸ lexemes_mem_writtenAll fun g hg => ?_
  obtain ⟨before, after, hsplit⟩ := List.append_of_mem hg
  have haccounted := (hall before g after hsplit).2
  cases g with
  | kept s ls => exact ⟨s, ls, haccounted.2.2.1, rfl⟩
  | failed e consumed dropped => exact absurd (List.filterMap_eq_nil_iff.1 herrors _ hg) nofun

/-! ## Reading the rest -/

/-- The bound does not matter to reading, if it suffices for the tokens. -/
theorem statements_bound (hn : ts.length ≤ n) (hm : ts.length ≤ m) (done : List Statement)
    (errors : List SyntaxError) :
    statements line n done errors ts = statements line m done errors ts := by
  induction n generalizing m done errors ts with
  | zero =>
    obtain rfl := List.length_eq_zero_iff.1 (Nat.le_zero.1 hn)
    cases m <;> rfl
  | succ n ih =>
    by_cases hnil : ts = []
    · subst hnil
      cases m <;> rfl
    · obtain ⟨m, rfl⟩ : ∃ k, m = k + 1 := by
        have hpos := List.length_pos_iff.2 hnil
        exact ⟨m - 1, by omega⟩
      have hsame : statement (n + 1) ts = statement (m + 1) ts := statement_eq hn hm
      cases hr : statement (n + 1) ts with
      | ok s rest =>
        have hrest := statement_progresses _ _ _ _ hr
        rw [statements_ok hr, statements_ok (hsame.symm.trans hr)]
        exact ih (by omega) (by omega) _ _
      | error e rest =>
        have hr' := hsame.symm.trans hr
        rw [statements_error hnil hr, statements_error hnil hr']
        exact ih (length_synchronize hn hnil hr) (length_synchronize hm hnil hr') _ _

/-- What was read before stays in front, and does not matter to what is read. -/
theorem statements_after (n : Nat) (done : List Statement) (errors : List SyntaxError)
    (ts : List Lexeme) :
    statements line n done errors ts =
      ⟨done.reverse ++ (statements line n [] [] ts).statements,
        errors.reverse ++ (statements line n [] [] ts).errors⟩ := by
  induction n generalizing done errors ts with
  | zero => simp [statements]
  | succ n ih =>
    by_cases hnil : ts = []
    · subst hnil
      simp [statements]
    · cases hr : statement (n + 1) ts with
      | ok s rest =>
        rw [statements_ok hr, statements_ok hr, ih (s :: done), ih [s]]
        simp
      | error e rest =>
        rw [statements_error hnil hr, statements_error hnil hr, ih done (_ :: errors), ih [] [_]]
        simp

/-- The last of the tokens is the last of those at their end. -/
theorem lastLine_append (hus : us ≠ []) : lastLine (ts ++ us) = lastLine us := by
  rw [lastLine, lastLine, List.getLast?_append_of_ne_nil _ hus]

/-! ## Programs -/

/-- **Programs are read apart.** Where tokens are read without an error, and no further branch of a conditional
follows, the tokens after them are read as on their own: their statements come after those of the tokens before
them, and their errors are all there are, on the lines they have on their own. -/
theorem programs_are_read_apart (hts : (parse ts).errors = []) (hus : NoBranch us) :
    (parse (ts ++ us)).statements = (parse ts).statements ++ (parse us).statements ∧
      (parse (ts ++ us)).errors = (parse us).errors := by
  by_cases hnil : us = []
  · subst hnil
    rw [List.append_nil]
    exact ⟨(List.append_nil _).symm, hts⟩
  · obtain ⟨m, hm, hread⟩ := statements_written_append (parse_shaped ts) (written_of_parse hts) hus
      le_rfl (lastLine (ts ++ us)) [] []
    have hrest : statements (lastLine us) m [] [] us = parse us := statements_bound hm le_rfl [] []
    have hboth : parse (ts ++ us) = _ := hread.trans (statements_after m _ _ us)
    rw [lastLine_append hnil, hrest] at hboth
    rw [hboth, List.append_nil, List.reverse_reverse]
    exact ⟨rfl, rfl⟩

/-- `if a { }` and after it `b; print`, which ends too soon. -/
theorem conditional_and_print_read_apart :
    let conditional : List Lexeme :=
      [⟨.keyword .if_, 1⟩, ⟨.identifier "a", 1⟩, ⟨.mark .openBrace, 1⟩, ⟨.mark .closeBrace, 2⟩]
    let unfinished : List Lexeme :=
      [⟨.identifier "b", 3⟩, ⟨.mark .semicolon, 3⟩, ⟨.keyword .print_, 4⟩]
    (parse conditional).errors = [] ∧ NoBranch unfinished ∧
      (parse (conditional ++ unfinished)).statements =
        (parse conditional).statements ++ [.expr (.name "b" 3) 3] ∧
      (parse (conditional ++ unfinished)).errors = [⟨.endOfInput .expression, 4⟩] := by
  intro conditional unfinished
  have hconditional : (parse conditional).errors = [] := rfl
  have hunfinished : NoBranch unfinished := ahead_cons.2 ⟨nofun, nofun⟩
  exact ⟨hconditional, hunfinished, programs_are_read_apart hconditional hunfinished⟩

end Scriptling.Grammar
