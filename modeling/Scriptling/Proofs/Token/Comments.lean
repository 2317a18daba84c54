import Scriptling.Proofs.Token.LineBreaks

/-!
# Scriptling.Proofs.Token.Comments -- where block comments end

A star in a comment takes the next character with it, unless that is a slash. So the stars before a `*/` go in pairs:
if they pair off, the comment ends there, and if one is left over, it takes the star of the `*/` with it, and the
comment goes on after the slash. After a `/*` every text is the body of a comment as far as it goes (`exists_body`),
and the number of stars at its end tells whether a text is such a body (`mem_body_iff`).

The main result is `comments_end_where_stars_pair_off`.
-/

set_option autoImplicit false

namespace Scriptling.Token

open Computability Rule

/-! ## Bodies of comments -/

/-- How many stars a text ends in. -/
def starsAtEnd (cs : List Char) : Nat := (cs.rtakeWhile (· = '*')).length

section Bodies

variable {unit cs body : List Char}

theorem starsAtEnd_concat_star (cs : List Char) : starsAtEnd (cs ++ ['*']) = starsAtEnd cs + 1 := by
  unfold starsAtEnd
  rw [List.rtakeWhile_concat_pos _ _ _ (by decide), List.length_append, List.length_singleton]

theorem starsAtEnd_concat {c : Char} (hc : c ≠ '*') (cs : List Char) : starsAtEnd (cs ++ [c]) = 0 := by
  unfold starsAtEnd
  rw [List.rtakeWhile_concat_neg _ _ _ (by simpa using hc), List.length_nil]

/-- The stars of a unit pair off. -/
theorem even_starsAtEnd_unit (hunit : unit ∈ commentUnits) : Even (starsAtEnd unit) := by
  rcases mem_commentUnits.1 hunit with ⟨c, hc, rfl⟩ | ⟨c, _, rfl⟩
  · exact starsAtEnd_concat hc [] ▸ Even.zero
  · by_cases hc : c = '*'
    · rw [hc]
      decide
    · exact starsAtEnd_concat hc ['*'] ▸ Even.zero

/-- So a unit in front changes nothing about the others. -/
theorem even_starsAtEnd_unit_append (hunit : unit ∈ commentUnits) (cs : List Char) :
    Even (starsAtEnd (unit ++ cs)) ↔ Even (starsAtEnd cs) := by
  induction cs using List.reverseRecOn with
  | nil =>
    rw [List.append_nil]
    exact iff_of_true (even_starsAtEnd_unit hunit) Even.zero
  | append_singleton cs c ih =>
    rw [← List.append_assoc]
    by_cases hc : c = '*'
    · rw [hc, starsAtEnd_concat_star, starsAtEnd_concat_star, Nat.even_add_one, Nat.even_add_one, ih]
    · rw [starsAtEnd_concat hc, starsAtEnd_concat hc]

/-- In the body of a comment all stars pair off, and so do those at its end. -/
theorem even_starsAtEnd (hbody : body ∈ commentUnits∗) : Even (starsAtEnd body) :=
  kstar_induction (P := fun body => Even (starsAtEnd body)) Even.zero
    (fun _ hunit cs _ ih => (even_starsAtEnd_unit_append hunit cs).2 ih) hbody

/-- Every text is the body of a comment up to its end, or up to a star that is the last character, or up to a `*/`
that ends the comment. -/
theorem exists_body : ∀ cs : List Char, ∃ body ∈ commentUnits∗, ∃ rest, cs = body ++ rest ∧
    (rest = [] ∨ rest = ['*'] ∨ ['*', '/'] <+: rest)
  | [] => ⟨[], Language.nil_mem_kstar _, [], rfl, .inl rfl⟩
  | [c] => by
    by_cases hc : c = '*'
    · exact ⟨[], Language.nil_mem_kstar _, [c], rfl, .inr (.inl (congrArg (List.cons · []) hc))⟩
    · have hunit : [c] ∈ commentUnits := mem_commentUnits.2 (.inl ⟨c, hc, rfl⟩)
      exact ⟨[c], append_mem_kstar hunit (Language.nil_mem_kstar _), [], rfl, .inl rfl⟩
  | c :: d :: cs => by
    by_cases hc : c = '*'
    · by_cases hd : d = '/'
      · rw [hc, hd]
        exact ⟨[], Language.nil_mem_kstar _, _, rfl, .inr (.inr (List.prefix_append ['*', '/'] cs))⟩
      · obtain ⟨body, hbody, rest, rfl, hrest⟩ := exists_body cs
        have hunit : [c, d] ∈ commentUnits := mem_commentUnits.2 (.inr ⟨d, hd, by rw [hc]⟩)
        exact ⟨[c, d] ++ body, append_mem_kstar hunit hbody, rest, rfl, hrest⟩
    · obtain ⟨body, hbody, rest, hcs, hrest⟩ := exists_body (d :: cs)
      have hunit : [c] ∈ commentUnits := mem_commentUnits.2 (.inl ⟨c, hc, rfl⟩)
      exact ⟨[c] ++ body, append_mem_kstar hunit hbody, rest, by rw [hcs]; rfl, hrest⟩

/-- Where there is no `*/`, a text is a body, or one star is left over. -/
theorem body_or_star (hcs : ¬ ['*', '/'] <:+: cs) :
    cs ∈ commentUnits∗ ∨ ∃ body ∈ commentUnits∗, cs = body ++ ['*'] := by
  obtain ⟨body, hbody, rest, rfl, rfl | rfl | ⟨after, rfl⟩⟩ := exists_body cs
  · rw [List.append_nil]
    exact .inl hbody
  · exact .inr ⟨body, hbody, rfl⟩
  · exact absurd ⟨body, after, List.append_assoc ..⟩ hcs

/-- Where there is no `*/`, a text is a body if and only if the stars at its end pair off. -/
theorem mem_body_iff (hcs : ¬ ['*', '/'] <:+: cs) : cs ∈ commentUnits∗ ↔ Even (starsAtEnd cs) := by
  refine ⟨even_starsAtEnd, fun heven => ?_⟩
  rcases body_or_star hcs with hbody | ⟨body, hbody, rfl⟩
  · exact hbody
  · rw [starsAtEnd_concat_star, Nat.even_add_one] at heven
    exact absurd (even_starsAtEnd hbody) heven

/-- A star that is left over takes that of a `*/` with it. -/
theorem close_mem_body (hcs : ¬ ['*', '/'] <:+: cs) (hodd : ¬ Even (starsAtEnd cs))
    (hbody : body ∈ commentUnits∗) : cs ++ ['*', '/'] ++ body ∈ commentUnits∗ := by
  rcases body_or_star hcs with hcs' | ⟨front, hfront, rfl⟩
  · exact absurd (even_starsAtEnd hcs') hodd
  · have hpair : ['*', '*'] ∈ commentUnits := mem_commentUnits.2 (.inr ⟨'*', by decide, rfl⟩)
    have hslash : ['/'] ∈ commentUnits := mem_commentUnits.2 (.inl ⟨'/', by decide, rfl⟩)
    have hrest := append_mem_kstar hpair (append_mem_kstar hslash hbody)
    have htext : front ++ ['*'] ++ ['*', '/'] ++ body = front ++ (['*', '*'] ++ (['/'] ++ body)) := by
      simp
    rw [htext, ← kstar_mul_kstar commentUnits]
    exact Language.append_mem_mul hfront hrest

/-! ## Comments in a text -/

/-- What a text has, tokens or an error, on lines that are further down by `k`. -/
def downBy (k : Nat) : Except SyntaxError (List Lexeme) → Except SyntaxError (List Lexeme)
  | .ok ts => .ok (ts.map (Lexeme.reline (k + ·)))
  | .error e => .error (e.reline (k + ·))

/-- A text that begins after another one has the same as alone, further down. -/
theorem scan_after (before cs : List Char) :
    scan (1 + before.count '\n') [] cs = downBy (before.count '\n') (scan 1 [] cs) := by
  obtain ⟨pieces, ts, rest, hcut, hts, hend⟩ := exists_cut cs []
  have halone := scan_of_cut hcut hts []
  have hafter := scan_of_cut hcut (hts.after before) []
  rw [List.append_nil] at hafter
  rw [List.count_nil, Nat.add_zero, List.nil_append] at halone
  rw [halone, hafter, List.append_nil, List.append_nil]
  rcases hend with rfl | ⟨slice, hfails⟩
  · rw [scan, scan, List.reverse_reverse, List.reverse_reverse]
    rfl
  · have hline : 1 + (before ++ joined pieces).count '\n' =
        before.count '\n' + (1 + (joined pieces).count '\n') := by
      rw [List.count_append]
      omega
    rw [scan_of_fails hfails, scan_of_fails hfails, hline]
    rfl

/-- A body between the delimiters is the lexeme there, whatever comes after it. -/
theorem longest_blockComment (hbody : body ∈ commentUnits∗) (rest : List Char) :
    Longest .blockComment (['/', '*'] ++ body ++ ['*', '/']) rest := by
  have hlanguage : ['/', '*'] ++ body ++ ['*', '/'] ∈ Pattern.blockComment.language :=
    mem_between.2 ⟨body, hbody, rfl⟩
  refine ⟨⟨by simp [Pattern.all], hlanguage, fun h => ?_⟩, fun q text' rest' hcs hfits => ?_, nofun⟩
  · cases h
  · have hq : q = .blockComment := hfits.eq_blockComment hcs
    rw [hq] at hfits
    exact (length_eq_of_blockComment hcs hlanguage hfits.language).le

/-- A comment is skipped, and its line breaks are counted. -/
theorem ofText_comment (hbody : body ∈ commentUnits∗) (rest : List Char) :
    ofText (String.ofList (['/', '*'] ++ body ++ ['*', '/'] ++ rest)) =
      downBy (body.count '\n') (ofText (String.ofList rest)) := by
  have hcount : (['/', '*'] ++ body ++ ['*', '/']).count '\n' = body.count '\n' := by
    simp [List.count_append]
  have hskipped : Pattern.blockComment.isSkipped = true := rfl
  have hstart := scan_of_longest (longest_blockComment hbody rest) (1 + [].count '\n') []
  rw [if_pos hskipped, List.count_nil, Nat.add_zero, scan_after, hcount] at hstart
  unfold ofText
  rw [String.toList_ofList, String.toList_ofList, hstart]

/-- A comment that is not ended is an error. -/
theorem ofText_unclosed {rest : List Char} (hbody : body ∈ commentUnits∗) (hrest : rest = [] ∨ rest = ['*']) :
    ofText (String.ofList (['/', '*'] ++ body ++ rest)) =
      .error ⟨.unrecognized (String.ofList (['/', '*'] ++ body)), 1⟩ := by
  have hextent : commentExtent 2 (body ++ rest) = .unclosed (2 + body.length) := by
    rw [extent_body_append (fun _ hunit => commentExtent_unit hunit) hbody]
    rcases hrest with rfl | rfl <;> rfl
  have hunclosed (text rest' : List Char) (hcs : text ++ rest' = ['/', '*'] ++ (body ++ rest)) :
      text ∉ Pattern.blockComment.language := by
    intro htext
    obtain ⟨body', hbody', rfl⟩ := mem_between.1 htext
    simp only [List.append_assoc, List.append_cancel_left_eq] at hcs
    have hcloses : Closes commentUnits ['*', '/'] 2 (body ++ rest) (2 + body'.length + 2) :=
      ⟨body', hbody', ⟨rest', (List.append_assoc ..).trans hcs⟩, rfl⟩
    have hclosed := (commentExtent_closed _ _ _).2 hcloses
    rw [hextent] at hclosed
    cases hclosed
  have hunmatched : Unmatched (['/', '*'] ++ (body ++ rest)) :=
    unmatched_of_unclosed (p := .blockComment) (by simp) hunclosed
  have hblame : blame (['/', '*'] ++ (body ++ rest)) = (['/', '*'] ++ body).length := by
    show (commentExtent 2 (body ++ rest)).length = _
    rw [hextent, List.length_append]
    rfl
  unfold ofText
  rw [String.toList_ofList, List.append_assoc, scan_of_unmatched (by simp) hunmatched, hblame,
    ← List.append_assoc, List.take_left]

end Bodies

/-- **Comments end where stars pair off.** Take a text without `*/` between the `/*` that opens a comment and a `*/`.
If the number of stars that the text ends in is even, the comment ends there: what comes after it has the same
tokens, or the same error, as alone, and has moved down by the line breaks of the text. Otherwise the comment goes
on. It ends at a later `*/`, where what stands before it is a body as well, and what comes after that has moved down
by the line breaks of both; or there is no such `*/`, and the whole is an error on the first line, up to the end or
to a star that is the last character. -/
theorem comments_end_where_stars_pair_off (c rest : String) (hc : ¬ ['*', '/'] <:+: c.toList) :
    (Even (starsAtEnd c.toList) →
      ofText ("/*" ++ c ++ "*/" ++ rest) = downBy (c.toList.count '\n') (ofText rest)) ∧
    (¬ Even (starsAtEnd c.toList) → ∃ body ∈ commentUnits∗, ∃ after, rest.toList = body ++ after ∧
      ((∃ cs, after = ['*', '/'] ++ cs ∧ ofText ("/*" ++ c ++ "*/" ++ rest) =
          downBy (c.toList.count '\n' + body.count '\n') (ofText (String.ofList cs))) ∨
        (after = [] ∨ after = ['*']) ∧ ofText ("/*" ++ c ++ "*/" ++ rest) =
          .error ⟨.unrecognized ("/*" ++ c ++ "*/" ++ String.ofList body), 1⟩)) := by
  have htext : "/*" ++ c ++ "*/" ++ rest =
      String.ofList (['/', '*'] ++ c.toList ++ ['*', '/'] ++ rest.toList) := by
    apply String.toList_injective
    simp
  refine ⟨fun heven => ?_, fun hodd => ?_⟩
  · rw [htext, ofText_comment ((mem_body_iff hc).2 heven), String.ofList_toList]
  · obtain ⟨body, hbody, after, hrest, hafter⟩ := exists_body rest.toList
    have hwhole := close_mem_body hc hodd hbody
    have hshape : ['/', '*'] ++ c.toList ++ ['*', '/'] ++ (body ++ after) =
        ['/', '*'] ++ (c.toList ++ ['*', '/'] ++ body) ++ after := by
      simp
    have hunclosed (hend : after = [] ∨ after = ['*']) : ofText ("/*" ++ c ++ "*/" ++ rest) =
        .error ⟨.unrecognized ("/*" ++ c ++ "*/" ++ String.ofList body), 1⟩ := by
      have hslice : String.ofList (['/', '*'] ++ (c.toList ++ ['*', '/'] ++ body)) =
          "/*" ++ c ++ "*/" ++ String.ofList body := by
        apply String.toList_injective
        simp
      rw [htext, hrest, hshape, ofText_unclosed hwhole hend, hslice]
    refine ⟨body, hbody, after, hrest, ?_⟩
    rcases hafter with hend | hend | ⟨cs, hcs⟩
    · exact .inr ⟨.inl hend, hunclosed (.inl hend)⟩
    · exact .inr ⟨.inr hend, hunclosed (.inr hend)⟩
    · have hcount : (c.toList ++ ['*', '/'] ++ body).count '\n' =
          c.toList.count '\n' + body.count '\n' := by
        simp [List.count_append]
      refine .inl ⟨cs, hcs.symm, ?_⟩
      rw [htext, hrest, hshape, ← hcs, ← List.append_assoc, ofText_comment hwhole, hcount]

/-- A pair of stars before the `*/` does not keep the comment open, and its line break is counted. -/
theorem paired_stars_end_comment :
    ¬ ['*', '/'] <:+: "a\n**".toList ∧ Even (starsAtEnd "a\n**".toList) ∧
      ofText ("/*" ++ "a\n**" ++ "*/" ++ "7") = downBy 1 (ofText "7") ∧
      ofText "7" = .ok [⟨.integer 7, 1⟩] := by
  have hopen : ¬ ['*', '/'] <:+: "a\n**".toList := by decide
  have heven : Even (starsAtEnd "a\n**".toList) := by decide
  have hseven : ofText "7" = .ok [⟨.integer 7, 1⟩] := by
    cbv
  exact ⟨hopen, heven, (comments_end_where_stars_pair_off _ _ hopen).1 heven, hseven⟩

/-- A comment does not end at the first `*/` if that has one star before it: in `/* a **/ 7` the last star takes the
first one with it, and the comment is not ended at all. -/
theorem single_star_keeps_comment_open :
    ¬ ['*', '/'] <:+: " a *".toList ∧
      ofText ("/*" ++ " a *" ++ "*/" ++ " 7") = .error ⟨.unrecognized "/* a **/ 7", 1⟩ ∧
      downBy (" a *".toList.count '\n') (ofText " 7") = .ok [⟨.integer 7, 1⟩] := by
  refine ⟨by decide, by cbv, by cbv⟩

end Scriptling.Token
