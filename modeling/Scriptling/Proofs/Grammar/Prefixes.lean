import Scriptling.Proofs.Grammar.Alike.Statement

/-!
# Scriptling.Proofs.Grammar.Prefixes -- where an error is reported

An error is reported at the first token with which the tokens stop being the beginning of a statement
(`errors_name_the_first_misfit`). Neither half is about one way to go on: what was read before the error can be
completed in some way, because a parser only fails where something else would have been right; and the token that
the error names is wrong whatever follows it, because no parser has looked further.
-/

set_option autoImplicit false

namespace Scriptling.Grammar

variable {n : Nat} {front rest ts : List Lexeme} {e : SyntaxError} {l : Lexeme}

/-- Some statement is all of the tokens. -/
def IsStatement (ts : List Lexeme) : Prop :=
  ∃ s, ∀ n, ts.length ≤ n → statement n ts = .ok s []

/-- The tokens begin with no statement; the error is found where `rest` is left. -/
def FailsAt (e : SyntaxError) (rest ts : List Lexeme) : Prop :=
  ∀ n, ts.length ≤ n → statement n ts = .error e rest

/-- A reading with one bound is a reading with every bound that suffices. -/
theorem FailsAt.of_statement (hts : ts.length ≤ n) (h : statement n ts = .error e rest) :
    FailsAt e rest ts := by
  intro m hm
  rw [statement_eq hm hts, h]

/-- A way to write a statement is one. -/
theorem isStatement_of_written {s : Statement} (hs : s.Shaped) (hts : ts ∈ s.written) :
    IsStatement ts := by
  refine ⟨s, fun n hn => ?_⟩
  have hread := rereads_statement n s ts [] hs hts ahead_nil (by rwa [List.append_nil])
  rwa [List.append_nil] at hread

/-- What was read before an error can be completed. -/
theorem exists_completion (h : statement n (front ++ rest) = .error e rest) :
    ∃ finish, IsStatement (front ++ finish) := by
  obtain ⟨front', s, finish, hfront, hs, hwritten⟩ := (reads_statement n).completable h
  obtain rfl := List.append_cancel_right hfront
  exact ⟨finish, isStatement_of_written hs hwritten⟩

/-- The error stays when the tokens after the one it names are replaced. -/
theorem FailsAt.replace (h : FailsAt e (l :: rest) (front ++ l :: rest)) (us : List Lexeme) :
    FailsAt e (l :: us) (front ++ l :: us) := by
  obtain ⟨front', hfront, hread⟩ := alike_statement (f := id)
    (d := (front ++ l :: us).length) _ (front ++ l :: rest) le_rfl
  rw [h _ le_rfl] at hfront hread
  obtain rfl := List.append_cancel_right hfront
  have hagain := hread (l :: us) (sameNext_cons.2 ⟨us, rfl⟩)
  rw [Lexeme.reline_id, List.map_id] at hagain
  refine .of_statement (Nat.le_add_right _ _) ((hagain (Nat.le_add_right _ _)).trans ?_)
  exact congrArg (EStateM.Result.error · (l :: us)) e.reline_id

/-- **Errors name the first misfit.** If the tokens are not read, the error names one of them or says that they
have ended. If it names one, then what comes before it is the beginning of a statement, and with it, it is not:
whatever follows, the same error is reported at the same place. If they have ended, they are the beginning of a
statement and not a whole one. -/
theorem errors_name_the_first_misfit (hts : ts.length ≤ n)
    (h : statement n ts = .error e rest) :
    ∃ front, ts = front ++ rest ∧
      ((∃ l more, rest = l :: more ∧ e.Names 0 (l :: more) ∧
          (∃ finish, IsStatement (front ++ finish)) ∧
          ∀ us, FailsAt e (l :: us) (front ++ l :: us)) ∨
        rest = [] ∧ (∃ x, e = ⟨.endOfInput x, 0⟩) ∧
          ∃ finish, finish ≠ [] ∧ IsStatement (ts ++ finish)) := by
  obtain ⟨⟨front, rfl⟩, hnames⟩ := (reads_statement n).of_error h
  obtain ⟨finish, hfinish⟩ := exists_completion h
  refine ⟨front, rfl, ?_⟩
  cases rest with
  | cons l more =>
    exact .inl ⟨l, more, rfl, hnames, ⟨finish, hfinish⟩, (FailsAt.of_statement hts h).replace⟩
  | nil =>
    cases hnames with
    | endOfInput x =>
      refine .inr ⟨rfl, ⟨x, rfl⟩, finish, ?_, by rwa [List.append_nil]⟩
      -- Otherwise the tokens would be a statement as they are.
      rintro rfl
      obtain ⟨s, hs⟩ := hfinish
      rw [hs n hts] at h
      cases h

/-- In `x = y + ;` the semicolon is the first misfit. -/
theorem missing_operand_is_the_first_misfit :
    let front : List Lexeme :=
      [⟨.identifier "x", 1⟩, ⟨.assign .plain, 1⟩, ⟨.identifier "y", 1⟩,
        ⟨.operator (.arithmetic .add), 1⟩]
    let semicolon : Lexeme := ⟨.mark .semicolon, 1⟩
    let e : SyntaxError := ⟨.unexpected .expression (.mark .semicolon), 1⟩
    statement 5 (front ++ [semicolon]) = .error e [semicolon] ∧
      (∃ finish, IsStatement (front ++ finish)) ∧
      ∀ us, FailsAt e (semicolon :: us) (front ++ semicolon :: us) := by
  intro front semicolon e
  have h : statement 5 (front ++ [semicolon]) = .error e [semicolon] := rfl
  have hlength : (front ++ [semicolon]).length ≤ 5 := le_rfl
  obtain ⟨front', hfront, hmisfit⟩ := errors_name_the_first_misfit hlength h
  obtain rfl : front' = front := (List.append_cancel_right hfront).symm
  rcases hmisfit with ⟨l, more, hrest, -, hfinish, hfails⟩ | ⟨hrest, -⟩
  · cases hrest
    exact ⟨h, hfinish, hfails⟩
  · cases hrest

end Scriptling.Grammar
