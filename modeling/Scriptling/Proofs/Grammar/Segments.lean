import Scriptling.Proofs.Grammar.Alike.Statement
import Scriptling.Proofs.Grammar.Spelling

/-!
# Scriptling.Proofs.Grammar.Segments -- every token is accounted for

Reading a sequence of tokens cuts it into segments. A segment is what one statement was read from, or what
one error has cost: the tokens that were read until the error, and those that recovery dropped then. The
main result, `segments_account`, says that the segments make up the whole sequence, that there is one for
each statement and one for each error, and what each of them is made of. This determines them: a sequence
can be cut in one way only (`Segments.unique`).
-/

set_option autoImplicit false

namespace Scriptling.Grammar

/-- What one round of reading has made of its tokens. -/
inductive Segment where
  /-- A statement and the tokens it was read from. -/
  | kept (s : Statement) (tokens : List Lexeme)
  /-- An error, the tokens that were read until it arose and the tokens that were dropped after it. -/
  | failed (e : SyntaxError) (consumed dropped : List Lexeme)

namespace Segment

/-- The tokens of a segment. -/
def lexemes : Segment → List Lexeme
  | kept _ ts => ts
  | failed _ consumed dropped => consumed ++ dropped

/-- The statement that a segment was read as. -/
def statement? : Segment → Option Statement
  | kept s _ => some s
  | failed _ _ _ => none

/-- The error that a segment has led to. -/
def error? : Segment → Option SyntaxError
  | kept _ _ => none
  | failed e _ _ => some e

end Segment

/-- The tokens up to the next semicolon, which is the last of them, or all tokens if there is none. -/
def ThroughSemicolon (dropped rest : List Lexeme) : Prop :=
  (∃ front l, dropped = front ++ [l] ∧ l.token = .mark .semicolon ∧
      ∀ l' ∈ front, l'.token ≠ .mark .semicolon) ∨
    (rest = [] ∧ ∀ l ∈ dropped, l.token ≠ .mark .semicolon)

/-- What a segment is made of, when `rest` are the tokens after it. A statement is shaped, its tokens are
one of the ways to write it, and these differ from `Statement.tokens` in `-> void` alone. An error is that
of the statement parser, which has read the consumed tokens and stopped. The error names the first of the
tokens from there on, and these are dropped through the next semicolon; or there are no tokens left, and
the error is put on the last line. -/
def Segment.Accounted (endLine : Nat) (rest : List Lexeme) : Segment → Prop
  | .kept s ts =>
    (∃ n, (ts ++ rest).length ≤ n ∧ statement n (ts ++ rest) = .ok s rest) ∧
      s.Shaped ∧ ts ∈ s.written ∧ UpToVoid (ts.map Lexeme.token) s.tokens
  | .failed e consumed dropped =>
    (∃ n e', (consumed ++ (dropped ++ rest)).length ≤ n ∧
        statement n (consumed ++ (dropped ++ rest)) = .error e' (dropped ++ rest) ∧
        e = e'.locate endLine) ∧
      e.Names endLine (dropped ++ rest) ∧ ThroughSemicolon dropped rest

/-! ## Recovery -/

theorem throughSemicolon_synchronize (ts : List Lexeme) :
    ∃ dropped, ts = dropped ++ synchronize ts ∧ ThroughSemicolon dropped (synchronize ts) := by
  induction ts with
  | nil => exact ⟨[], rfl, .inr ⟨rfl, List.forall_mem_nil _⟩⟩
  | cons l ts ih =>
    rw [synchronize]
    by_cases hl : l.token = .mark .semicolon
    · rw [if_pos hl]
      exact ⟨[l], rfl, .inl ⟨[], l, rfl, hl, List.forall_mem_nil _⟩⟩
    · rw [if_neg hl]
      obtain ⟨dropped, hts, h⟩ := ih
      refine ⟨l :: dropped, congrArg (List.cons l) hts, ?_⟩
      rcases h with ⟨front, last, rfl, hlast, hfront⟩ | ⟨hrest, hdropped⟩
      · exact .inl ⟨l :: front, last, rfl, hlast, List.forall_mem_cons.2 ⟨hl, hfront⟩⟩
      · exact .inr ⟨hrest, List.forall_mem_cons.2 ⟨hl, hdropped⟩⟩

/-- Recovery drops a token unless there is none. -/
theorem ThroughSemicolon.eq_nil {rest : List Lexeme} (h : ThroughSemicolon [] rest) : rest = [] := by
  rcases h with ⟨front, l, hnil, -, -⟩ | ⟨hrest, -⟩
  · exact absurd hnil (List.append_ne_nil_of_right_ne_nil front (List.cons_ne_nil l [])).symm
  · exact hrest

/-- Recovery goes on after the first semicolon. -/
theorem synchronize_append {front : List Lexeme} (hfront : ∀ l ∈ front, l.token ≠ .mark .semicolon)
    {l : Lexeme} (hl : l.token = .mark .semicolon) (rest : List Lexeme) :
    synchronize (front ++ l :: rest) = rest := by
  induction front with
  | nil => exact if_pos hl
  | cons x front ih =>
    rw [List.forall_mem_cons] at hfront
    rw [List.cons_append, synchronize, if_neg hfront.1, ih hfront.2]

/-- What recovery drops is determined by the tokens. -/
theorem ThroughSemicolon.synchronize_eq {dropped rest : List Lexeme} (h : ThroughSemicolon dropped rest) :
    synchronize (dropped ++ rest) = rest := by
  rcases h with ⟨front, l, rfl, hl, hfront⟩ | ⟨rfl, hdropped⟩
  · rw [List.append_assoc]
    exact synchronize_append hfront hl rest
  · rw [List.append_nil]
    induction dropped with
    | nil => rfl
    | cons l dropped ih =>
      rw [List.forall_mem_cons] at hdropped
      rw [synchronize, if_neg hdropped.1, ih hdropped.2]

/-! ## One round -/

section Rounds

variable {n endLine : Nat} {ts rest : List Lexeme}

/-- A statement accounts for the tokens that its reading has taken. -/
theorem accounted_kept {s : Statement} {front : List Lexeme} (hn : (front ++ rest).length ≤ n)
    (h : statement n (front ++ rest) = .ok s rest) : (Segment.kept s front).Accounted endLine rest := by
  obtain ⟨hs, front', hfront, hsplit⟩ := (reads_statement n).of_ok h
  obtain rfl := List.append_cancel_right hsplit
  exact ⟨⟨n, hn, h⟩, hs, hfront, s.spells front hfront⟩

/-- An error accounts for the tokens before it and for those that recovery drops then. -/
theorem accounted_failed {e : SyntaxError} {consumed dropped : List Lexeme}
    (hn : (consumed ++ (dropped ++ rest)).length ≤ n)
    (h : statement n (consumed ++ (dropped ++ rest)) = .error e (dropped ++ rest))
    (hdropped : ThroughSemicolon dropped rest) :
    (Segment.failed (e.locate endLine) consumed dropped).Accounted endLine rest :=
  ⟨⟨n, e, hn, h, rfl⟩, ((reads_statement n).of_error h).2.locate endLine, hdropped⟩

/-- A statement that is read makes a segment. -/
theorem accounted_of_ok {s : Statement} (hn : ts.length ≤ n) (h : statement n ts = .ok s rest) :
    ∃ front, ts = front ++ rest ∧ front ≠ [] ∧ (Segment.kept s front).Accounted endLine rest := by
  obtain ⟨-, front, hfront, rfl⟩ := (reads_statement n).of_ok h
  exact ⟨front, rfl, s.startsOn_written.ne_nil hfront, accounted_kept hn h⟩

/-- An error makes a segment together with the tokens that recovery drops. -/
theorem accounted_of_error (endLine : Nat) {e : SyntaxError} (hn : ts.length ≤ n) (hts : ts ≠ [])
    (h : statement n ts = .error e rest) :
    ∃ consumed dropped, ts = consumed ++ dropped ++ synchronize rest ∧ consumed ++ dropped ≠ [] ∧
      (Segment.failed (e.locate endLine) consumed dropped).Accounted endLine (synchronize rest) := by
  obtain ⟨⟨consumed, rfl⟩, -⟩ := (reads_statement n).of_error h
  obtain ⟨dropped, hrest, hdropped⟩ := throughSemicolon_synchronize rest
  refine ⟨consumed, dropped, ?_, ?_, accounted_failed (n := n) ?_ ?_ hdropped⟩
  · rw [List.append_assoc, ← hrest]
  · intro hnil
    obtain ⟨rfl, rfl⟩ := List.append_eq_nil_iff.1 hnil
    rw [hdropped.eq_nil] at hrest
    exact hts hrest
  · rw [← hrest]
    exact hn
  · rw [← hrest]
    exact h

end Rounds

/-! ## All rounds -/

/-- The segments make up the tokens, and each of them is accounted for before those that follow it. -/
def Segments (endLine : Nat) (segments : List Segment) (ts : List Lexeme) : Prop :=
  segments.flatMap Segment.lexemes = ts ∧
    ∀ before g after, segments = before ++ g :: after →
      g.lexemes ≠ [] ∧ g.Accounted endLine (after.flatMap Segment.lexemes)

theorem segments_nil (endLine : Nat) : Segments endLine [] [] := by
  refine ⟨rfl, ?_⟩
  intro before g after h
  exact absurd h (List.append_ne_nil_of_right_ne_nil before (List.cons_ne_nil g after)).symm

theorem Segments.cons {endLine : Nat} {segments : List Segment} {g : Segment} {rest : List Lexeme}
    (h : Segments endLine segments rest) (hne : g.lexemes ≠ []) (hg : g.Accounted endLine rest) :
    Segments endLine (g :: segments) (g.lexemes ++ rest) := by
  obtain ⟨hrest, hall⟩ := h
  refine ⟨?_, ?_⟩
  · rw [List.flatMap_cons, hrest]
  · intro before g' after hsplit
    cases before with
    | nil =>
      obtain ⟨rfl, rfl⟩ := List.cons.inj hsplit
      rw [hrest]
      exact ⟨hne, hg⟩
    | cons b before =>
      obtain ⟨-, hsplit⟩ := List.cons.inj hsplit
      exact hall before g' after hsplit

/-- The first segment is accounted for before the tokens of the others, which are cut by them. -/
theorem Segments.of_cons {endLine : Nat} {segments : List Segment} {g : Segment} {ts : List Lexeme}
    (h : Segments endLine (g :: segments) ts) :
    ∃ rest, ts = g.lexemes ++ rest ∧ g.lexemes ≠ [] ∧ g.Accounted endLine rest ∧
      Segments endLine segments rest := by
  obtain ⟨hts, hall⟩ := h
  obtain ⟨hne, hg⟩ := hall [] g segments rfl
  refine ⟨segments.flatMap Segment.lexemes, hts.symm, hne, hg, rfl, fun before g' after hsplit => ?_⟩
  exact hall (g :: before) g' after (congrArg (List.cons g) hsplit)

/-- Each round takes off a segment, and the bound on the tokens goes down by one, so it is enough. -/
theorem statements_segments (endLine n : Nat) :
    ∀ (done : List Statement) (errors : List SyntaxError) (ts : List Lexeme), ts.length ≤ n →
      ∃ segments, Segments endLine segments ts ∧
        (statements endLine n done errors ts).statements =
          done.reverse ++ segments.filterMap Segment.statement? ∧
        (statements endLine n done errors ts).errors =
          errors.reverse ++ segments.filterMap Segment.error? := by
  induction n with
  | zero =>
    intro done errors ts hts
    obtain rfl := List.length_eq_zero_iff.1 (Nat.le_zero.1 hts)
    exact ⟨[], segments_nil endLine, (List.append_nil _).symm, (List.append_nil _).symm⟩
  | succ n ih =>
    intro done errors ts hts
    by_cases hnil : ts = []
    · subst hnil
      exact ⟨[], segments_nil endLine, (List.append_nil _).symm, (List.append_nil _).symm⟩
    · rw [statements]
      · -- Either way the segment is not empty, so the bound suffices for the tokens after it.
        cases hr : statement (n + 1) ts with
        | ok s rest =>
          obtain ⟨front, rfl, hne, haccounted⟩ := accounted_of_ok hts hr
          have hlength : rest.length ≤ n := by
            have := List.length_pos_iff.2 hne
            rw [List.length_append] at hts
            omega
          obtain ⟨segments, hsegments, hs, he⟩ := ih (s :: done) errors rest hlength
          refine ⟨.kept s front :: segments, hsegments.cons hne haccounted, ?_, ?_⟩
          · rw [hs, List.reverse_cons, List.append_assoc]
            rfl
          · exact he
        | error e rest =>
          obtain ⟨consumed, dropped, hsplit, hne, haccounted⟩ :=
            accounted_of_error endLine hts hnil hr
          have hlength : (synchronize rest).length ≤ n := by
            have := List.length_pos_iff.2 hne
            rw [hsplit, List.length_append] at hts
            omega
          obtain ⟨segments, hsegments, hs, he⟩ :=
            ih done (e.locate endLine :: errors) (synchronize rest) hlength
          refine ⟨.failed (e.locate endLine) consumed dropped :: segments, ?_, ?_, ?_⟩
          · rw [hsplit]
            exact hsegments.cons hne haccounted
          · exact hs
          · rw [he, List.reverse_cons, List.append_assoc]
            rfl
      · exact hnil

/-- Equal tokens are read with equal results. -/
theorem statement_unique {n m : Nat} {ts ts' : List Lexeme} {r r' : Reading Statement} (hn : ts.length ≤ n)
    (hm : ts'.length ≤ m) (hsame : ts = ts') (h : statement n ts = r) (h' : statement m ts' = r') : r = r' := by
  subst hsame
  rw [← h, ← h', statement_eq hn hm]

/-- The first segment is determined by the tokens: the statement parser comes to one end on them, and what is
left after an error says what recovery drops. -/
theorem Segment.Accounted.unique {endLine : Nat} {g g' : Segment} {rest rest' : List Lexeme}
    (h : g.Accounted endLine rest) (h' : g'.Accounted endLine rest')
    (hsame : g.lexemes ++ rest = g'.lexemes ++ rest') : g = g' ∧ rest = rest' := by
  cases g with
  | kept s ts =>
    obtain ⟨⟨n, hn, hread⟩, -⟩ := h
    cases g' with
    | kept s' ts' =>
      obtain ⟨⟨n', hn', hread'⟩, -⟩ := h'
      cases statement_unique hn hn' hsame hread hread'
      obtain rfl : ts = ts' := List.append_cancel_right hsame
      exact ⟨rfl, rfl⟩
    | failed e' consumed' dropped' =>
      obtain ⟨⟨n', e, hn', hread', -⟩, -⟩ := h'
      rw [lexemes, lexemes, List.append_assoc] at hsame
      cases statement_unique hn hn' hsame hread hread'
  | failed e consumed dropped =>
    obtain ⟨⟨n, e₀, hn, hread, rfl⟩, -, hdropped⟩ := h
    rw [lexemes, List.append_assoc] at hsame
    cases g' with
    | kept s' ts' =>
      obtain ⟨⟨n', hn', hread'⟩, -⟩ := h'
      cases statement_unique hn hn' hsame hread hread'
    | failed e' consumed' dropped' =>
      obtain ⟨⟨n', e₁, hn', hread', rfl⟩, -, hdropped'⟩ := h'
      rw [lexemes, List.append_assoc] at hsame
      obtain ⟨rfl, hleft⟩ := EStateM.Result.error.inj (statement_unique hn hn' hsame hread hread')
      have hrest : rest = rest' := by
        rw [← hdropped.synchronize_eq, ← hdropped'.synchronize_eq, hleft]
      subst hrest
      obtain rfl := List.append_cancel_right hleft
      obtain rfl := List.append_cancel_right hsame
      exact ⟨rfl, rfl⟩

/-- Tokens are cut into segments in one way. -/
theorem Segments.unique {endLine : Nat} {segments segments' : List Segment} {ts : List Lexeme}
    (h : Segments endLine segments ts) (h' : Segments endLine segments' ts) : segments = segments' := by
  induction segments generalizing segments' ts with
  | nil =>
    obtain rfl : [] = ts := h.1
    cases segments' with
    | nil => rfl
    | cons g' segments' =>
      obtain ⟨rest', hts, hne, -⟩ := h'.of_cons
      exact absurd (List.append_eq_nil_iff.1 hts.symm).1 hne
  | cons g segments ih =>
    obtain ⟨rest, rfl, hne, hg, hsegments⟩ := h.of_cons
    cases segments' with
    | nil =>
      obtain hnil : [] = g.lexemes ++ rest := h'.1
      exact absurd (List.append_eq_nil_iff.1 hnil.symm).1 hne
    | cons g' segments' =>
      obtain ⟨rest', hts, -, hg', hsegments'⟩ := h'.of_cons
      obtain ⟨rfl, rfl⟩ := hg.unique hg' hts
      rw [ih hsegments hsegments']

/-- A statement that is kept is accounted for, with tokens of the sequence. -/
theorem accounted_of_mem_parse {ts : List Lexeme} {s : Statement} (h : s ∈ (parse ts).statements) :
    ∃ ls rest, (Segment.kept s ls).Accounted (lastLine ts) rest ∧ ls ⊆ ts := by
  obtain ⟨segments, ⟨hts, hall⟩, hs, -⟩ :=
    statements_segments (lastLine ts) ts.length [] [] ts le_rfl
  have hkept : (parse ts).statements = segments.filterMap Segment.statement? := hs
  rw [hkept] at h
  obtain ⟨g, hg, hgs⟩ := List.mem_filterMap.1 h
  obtain ⟨before, after, hsplit⟩ := List.append_of_mem hg
  have haccounted := (hall before g after hsplit).2
  cases g with
  | kept s' ls =>
    cases hgs
    refine ⟨ls, _, haccounted, fun l hl => ?_⟩
    rw [← hts]
    exact List.mem_flatMap.2 ⟨_, hg, hl⟩
  | failed e consumed dropped => cases hgs

/-- All statements that are kept are shaped. -/
theorem parse_shaped (ts : List Lexeme) : Statement.ShapedAll (parse ts).statements := by
  rw [Statement.shapedAll_iff]
  intro s hs
  obtain ⟨ls, rest, haccounted, -⟩ := accounted_of_mem_parse hs
  exact haccounted.2.1

/-- **Every token is accounted for.** The tokens are cut, in order and without rest, into nonempty
segments, one for each statement and one for each error of the reading, both in their order. A statement
is shaped and its segment is the statement written back, but for `-> void`. The segment of an error is
what was read until the error and what was dropped from the token that it names through the next
semicolon; at the end of the tokens nothing is left to drop, and the error is on the line of the last
token. -/
theorem segments_account (ts : List Lexeme) :
    ∃ segments : List Segment,
      segments.flatMap Segment.lexemes = ts ∧
      segments.filterMap Segment.statement? = (parse ts).statements ∧
      segments.filterMap Segment.error? = (parse ts).errors ∧
      (∀ before g after, segments = before ++ g :: after →
        g.lexemes ≠ [] ∧ g.Accounted (lastLine ts) (after.flatMap Segment.lexemes)) := by
  obtain ⟨segments, ⟨hts, hall⟩, hs, he⟩ :=
    statements_segments (lastLine ts) ts.length [] [] ts le_rfl
  exact ⟨segments, hts, hs.symm, he.symm, hall⟩

end Scriptling.Grammar

namespace Scriptling.Program

/-- A program that was read declares no variable of type `void`. -/
theorem declaredTypes_ne_void {source file : String} {p : Program}
    (h : ofText source file = .ok p) :
    ∀ t ∈ Statement.declaredTypesAll p.statements, t ≠ .void := by
  unfold ofText at h
  cases hts : Token.ofText source with
  | error e =>
    rw [hts] at h
    cases h
  | ok ts =>
    rw [hts] at h
    dsimp only at h
    have hshaped := Grammar.parse_shaped ts
    split at h
    · rename_i statements hparse
      rw [hparse] at hshaped
      cases h
      exact Statement.declaredTypesAll_ne_void statements hshaped
    · cases h

end Scriptling.Program
