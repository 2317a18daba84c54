import Scriptling.Proofs.Token.Readings
import Scriptling.Token.Scan

/-!
# Scriptling.Proofs.Token.Scanning -- texts are cut into longest lexemes

A text is cut into lexemes from left to right, up to its end or up to where it fails (`exists_cut`). `scan`
goes the same way: past the pieces of a cut it has their tokens (`scan_of_cut`), and where a text fails it
stops with an error (`scan_of_fails`). So there is one such cut, and its tokens are those of the text.

The main result is `tokens_are_longest_lexemes`.
-/

set_option autoImplicit false

namespace Scriptling.Token

open Computability Rule

variable {p : Pattern} {text cs rest before slice : List Char} {pieces : List Piece} {ts : List Lexeme}

/-! ## One step -/

/-- What `scan` does at a lexeme. -/
theorem scan_of_longest (h : Longest p text rest) (line : Nat) (done : List Lexeme) :
    scan line done (text ++ rest) =
      if p.isSkipped then scan (line + text.count '\n') done rest
      else
        match p.rule.token? text with
        | some t => scan (line + text.count '\n') (⟨t, line⟩ :: done) rest
        | none => .error ⟨.unrecognized (String.ofList text), line⟩ := by
  have hmunch := munch_of_longest h
  obtain ⟨c, cs, rfl⟩ := List.exists_cons_of_ne_nil h.fits.ne_nil
  have htake : (c :: cs ++ rest).take (c :: cs).length = c :: cs := List.take_left
  have hdrop : (cs ++ rest).drop ((c :: cs).length - 1) = rest := List.drop_left
  rw [List.cons_append] at hmunch htake
  have hstep := scan.eq_2 line done c (cs ++ rest)
  rw [hmunch] at hstep
  dsimp only at hstep
  rw [htake, hdrop, Pattern.isSkipped_rule] at hstep
  exact hstep

theorem scan_of_unmatched (hne : cs ≠ []) (h : Unmatched cs) (line : Nat) (done : List Lexeme) :
    scan line done cs = .error ⟨.unrecognized (String.ofList (cs.take (blame cs))), line⟩ := by
  obtain ⟨c, cs, rfl⟩ := List.exists_cons_of_ne_nil hne
  rw [scan, munch_eq_none_iff.2 h]

/-- Where a text fails, `scan` does. -/
theorem scan_of_fails (h : Fails rest slice) (line : Nat) (done : List Lexeme) :
    scan line done rest = .error ⟨.unrecognized (String.ofList slice), line⟩ := by
  cases h with
  | unmatched hne h => exact scan_of_unmatched hne h line done
  | meaningless h ht =>
    rw [scan_of_longest h, if_neg (by simp [ht.not_skipped]), token?_of_meaningless h ht]

/-! ## Cuts -/

/-- Past the pieces of a cut, `scan` has their tokens, and has counted their line breaks. -/
theorem scan_of_cut (h : Cut cs pieces rest) (hts : Yields before pieces ts) (done : List Lexeme) :
    scan (1 + before.count '\n') done cs =
      scan (1 + (before ++ joined pieces).count '\n') (ts.reverse ++ done) rest := by
  -- On the cut, for any text before it: the count of line breaks is that of the text left behind.
  induction h generalizing before ts done with
  | nil rest =>
    cases hts
    rw [joined, List.flatMap_nil, List.append_nil]
    rfl
  | @cons p text cs rest pieces h _ ih =>
    have hline : 1 + before.count '\n' + text.count '\n' = 1 + (before ++ text).count '\n' := by
      rw [List.count_append]
      omega
    have hjoined : before ++ joined (⟨p, text⟩ :: pieces) = before ++ text ++ joined pieces := by
      rw [List.append_assoc]
      rfl
    rw [scan_of_longest h, hline, hjoined]
    cases hts with
    | skip hskipped hts => rw [if_pos hskipped, ih hts]
    | token ht hts =>
      rw [if_neg (by simp [Pattern.Reads.not_skipped ht]), token?_of_reads h ht]
      dsimp only
      rw [ih hts, List.reverse_cons, List.append_cons]

/-- Every text can be cut up to its end or up to where it fails. -/
theorem exists_cut (cs before : List Char) :
    ∃ pieces ts rest, Cut cs pieces rest ∧ Yields before pieces ts ∧
      (rest = [] ∨ ∃ slice, Fails rest slice) := by
  -- On the length of the text: lexemes are not empty.
  induction hlength : cs.length using Nat.strong_induction_on generalizing cs before with
  | _ n ih =>
    by_cases hnil : cs = []
    · exact ⟨[], [], cs, .nil cs, .nil before, .inl hnil⟩
    · cases hmunch : munch cs with
      | none =>
        have hfails : Fails cs _ := .unmatched hnil (munch_eq_none_iff.1 hmunch)
        exact ⟨[], [], cs, .nil cs, .nil before, .inr ⟨_, hfails⟩⟩
      | some best =>
        obtain ⟨p, text, rest, _, rfl, _, h⟩ := longest_of_munch hmunch
        have hpos : 0 < text.length := List.length_pos_iff.2 h.fits.ne_nil
        rw [List.length_append] at hlength
        obtain ⟨pieces, ts, end_, hcut, hts, hend⟩ := ih rest.length (by omega) rest (before ++ text) rfl
        rcases skipped_or_reads_or_meaningless h.fits with hskipped | ⟨t, ht⟩ | hmeaningless
        · exact ⟨_, _, end_, .cons h hcut, .skip hskipped hts, hend⟩
        · exact ⟨_, _, end_, .cons h hcut, .token ht hts, hend⟩
        · exact ⟨[], [], _, .nil _, .nil before, .inr ⟨text, .meaningless h hmeaningless⟩⟩

/-- Where a string, a character or a comment is opened and not closed, nothing fits: no other lexeme starts
as they do. -/
theorem unmatched_of_unclosed {opening : List Char}
    (hopening : (opening, p) ∈ [(['"'], .string), (['\''], .char), (['/', '*'], .blockComment)])
    (h : ∀ text rest, text ++ rest = opening ++ cs → text ∉ p.language) :
    Unmatched (opening ++ cs) := by
  intro q text rest hcs hfits
  have hnot := h text rest hcs
  have hfamily := Pattern.family_eq hfits.pattern hfits.language
  obtain ⟨c, text, rfl⟩ := List.exists_cons_of_ne_nil hfits.ne_nil
  -- The opening tells the rule, and with these three the rule tells the pattern.
  have hq {r : Rule} (hr : family (c :: text) = some r) : q.rule = r :=
    Option.some.inj (hfamily.symm.trans hr)
  simp only [List.mem_cons, Prod.mk.injEq, List.not_mem_nil, or_false] at hopening
  rcases hopening with ⟨rfl, rfl⟩ | ⟨rfl, rfl⟩ | ⟨rfl, rfl⟩
  · cases hcs
    have hrule : q.rule = .string := hq rfl
    cases q with
    | string => exact hnot hfits.language
    | _ => cases hrule
  · cases hcs
    have hrule : q.rule = .char := hq rfl
    cases q with
    | char => exact hnot hfits.language
    | _ => cases hrule
  · cases text with
    | nil =>
      cases hcs
      exact hfits.slash rfl rfl
    | cons d text =>
      cases hcs
      have hrule : q.rule = .blockComment := hq rfl
      cases q with
      | blockComment => exact hnot hfits.language
      | _ => cases hrule

/-- **Tokens are longest lexemes.** A text has tokens if and only if it can be cut, from left to right and to
its end, into lexemes each of which is the longest that fits and has a meaning. The tokens are those that the
lexemes stand for, each on the line that is one more than the number of line breaks before it. All other
texts have an error, and that is if and only if after some lexemes comes a text at whose start nothing fits,
or a lexeme that has no meaning: an integer beyond the range, or a literal with an escape that is not known.
Its line is the one where that begins. Nothing fits, among others, where a string, a character or a comment is
opened and not closed. -/
theorem tokens_are_longest_lexemes :
    (∀ source : String,
      (∀ ts, ofText source = .ok ts ↔
        ∃ pieces, Cut source.toList pieces [] ∧ Yields [] pieces ts) ∧
      ∀ e, ofText source = .error e ↔
        ∃ pieces ts rest slice, Cut source.toList pieces rest ∧ Yields [] pieces ts ∧
          Fails rest slice ∧
          e = ⟨.unrecognized (String.ofList slice), 1 + (joined pieces).count '\n'⟩) ∧
    ∀ (opening : List Char) (p : Pattern) (cs : List Char),
      (opening, p) ∈ [(['"'], .string), (['\''], .char), (['/', '*'], .blockComment)] →
      (∀ text rest, text ++ rest = opening ++ cs → text ∉ p.language) → Unmatched (opening ++ cs) := by
  refine ⟨fun source => ?_, fun opening p cs hopening h => unmatched_of_unclosed hopening h⟩
  have hok {pieces : List Piece} {ts : List Lexeme} (hcut : Cut source.toList pieces [])
      (hts : Yields [] pieces ts) : ofText source = .ok ts := by
    have hscan := scan_of_cut hcut hts []
    rw [scan, List.append_nil, List.reverse_reverse] at hscan
    exact hscan
  have herror {pieces : List Piece} {ts : List Lexeme} {rest slice : List Char}
      (hcut : Cut source.toList pieces rest) (hts : Yields [] pieces ts) (hfails : Fails rest slice) :
      ofText source =
        .error ⟨.unrecognized (String.ofList slice), 1 + (joined pieces).count '\n'⟩ := by
    have hscan := scan_of_cut hcut hts []
    rw [scan_of_fails hfails] at hscan
    exact hscan
  -- There is a cut in any case, and `scan` has followed it: so it tells which answer was given.
  obtain ⟨pieces, ts, rest, hcut, hts, hend⟩ := exists_cut source.toList []
  refine ⟨fun ts' => ⟨fun h => ?_, ?_⟩, fun e => ⟨fun h => ?_, ?_⟩⟩
  · rcases hend with rfl | ⟨slice, hfails⟩
    · rw [hok hcut hts] at h
      cases h
      exact ⟨pieces, hcut, hts⟩
    · rw [herror hcut hts hfails] at h
      cases h
  · rintro ⟨pieces, hcut, hts⟩
    exact hok hcut hts
  · rcases hend with rfl | ⟨slice, hfails⟩
    · rw [hok hcut hts] at h
      cases h
    · rw [herror hcut hts hfails] at h
      cases h
      exact ⟨pieces, ts, rest, slice, hcut, hts, hfails, rfl⟩
  · rintro ⟨pieces, ts, rest, slice, hcut, hts, hfails, rfl⟩
    exact herror hcut hts hfails

/-- A comment that is not closed is an error, though a slash and a star are symbols. -/
theorem unclosed_comment_fails :
    ofText "7 /*b" = .error ⟨.unrecognized "/*b", 1⟩ ∧ Unmatched ['/', '*', 'b'] ∧
      ∃ pieces ts rest slice, Cut "7 /*b".toList pieces rest ∧ Yields [] pieces ts ∧
        Fails rest slice ∧ "/*b" = String.ofList slice ∧ (joined pieces).count '\n' = 0 := by
  have herror : ofText "7 /*b" = .error ⟨.unrecognized "/*b", 1⟩ := by
    cbv
  have hunclosed (text rest : List Char) (hcs : text ++ rest = ['/', '*'] ++ ['b']) :
      text ∉ Pattern.blockComment.language := by
    intro htext
    obtain ⟨body, _, rfl⟩ := mem_between.1 htext
    have hlength := congrArg List.length hcs
    simp only [List.length_append, List.length_cons, List.length_nil] at hlength
    omega
  obtain ⟨pieces, ts, rest, slice, hcut, hts, hfails, he⟩ :=
    ((tokens_are_longest_lexemes.1 "7 /*b").2 _).1 herror
  simp only [SyntaxError.mk.injEq, Problem.unrecognized.injEq] at he
  exact ⟨herror, tokens_are_longest_lexemes.2 _ _ _ (by simp) hunclosed, pieces, ts, rest, slice,
    hcut, hts, hfails, he.1, by omega⟩

end Scriptling.Token
