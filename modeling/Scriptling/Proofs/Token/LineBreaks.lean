import Scriptling.Proofs.Syntax.Lines
import Scriptling.Proofs.Token.Scanning

/-!
# Scriptling.Proofs.Token.LineBreaks -- texts are scanned line by line

A lexeme of a text stays the longest when a line break and more text come after the text
(`Longest.before_lineBreak`). What would reach past the break holds it, so it is a block comment; but then the
lexeme is one too, and a comment ends where it is first closed. So the pieces of two texts with a line break
between them are those of each text on its own (`Cut.before_lineBreak`), and only the lines of the tokens move
(`Yields.after`).

The main result is `lines_are_read_apart`.
-/

set_option autoImplicit false

namespace Scriptling.Token

open Computability Rule

/-! ## Languages without line breaks -/

/-- No text of the language has a line break in it. -/
def Unbroken (l : Language Char) : Prop := ∀ text ∈ l, '\n' ∉ text

namespace Unbroken

variable {l m : Language Char}

theorem just {text : List Char} (h : '\n' ∉ text) : Unbroken (just text) := by
  rintro _ rfl
  exact h

theorem oneOf {p : Char → Prop} (h : ¬ p '\n') : Unbroken (oneOf p) := by
  rintro _ ⟨c, hc, rfl⟩ hbreak
  exact h (List.mem_singleton.1 hbreak ▸ hc)

theorem add (hl : Unbroken l) (hm : Unbroken m) : Unbroken (l + m) := by
  rintro text (htext | htext)
  · exact hl text htext
  · exact hm text htext

theorem mul (hl : Unbroken l) (hm : Unbroken m) : Unbroken (l * m) := by
  rintro _ ⟨a, ha, b, hb, rfl⟩ hbreak
  rcases List.mem_append.1 hbreak with hbreak | hbreak
  · exact hl a ha hbreak
  · exact hm b hb hbreak

theorem kstar (hl : Unbroken l) : Unbroken l∗ := fun _ htext =>
  kstar_induction (P := fun text => '\n' ∉ text) List.not_mem_nil
    (fun a ha _ _ ih hbreak => (List.mem_append.1 hbreak).elim (hl a ha) ih) htext

theorem optional (hl : Unbroken l) : Unbroken (optional l) := by
  rintro text (rfl | htext)
  · exact List.not_mem_nil
  · exact hl text htext

theorem someOf {p : Char → Prop} (h : ¬ p '\n') : Unbroken (someOf p) := (oneOf h).mul (oneOf h).kstar

theorem digits : Unbroken (Token.someOf Digit) := someOf (by unfold Digit; decide)

theorem exponents : Unbroken exponents :=
  ((oneOf (by decide)).mul (oneOf (by decide)).optional).mul digits

theorem literalUnits (quote : Char) : Unbroken (literalUnits quote) :=
  (oneOf fun h => h.2.2 rfl).add ((just (by decide)).mul (oneOf fun h => h rfl))

/-- Words and symbols have no line break in them. -/
theorem fixed : (∀ e ∈ words, '\n' ∉ e.1) ∧ ∀ e ∈ symbols, '\n' ∉ e.1 := by decide

/-- Only block comments have line breaks in them, apart from the line break itself. -/
theorem language {p : Pattern} (hp : p ∈ Pattern.all) (hbreak : p ≠ .lineBreak)
    (hcomment : p ≠ .blockComment) : Unbroken p.language := by
  cases p with
  | lineBreak => exact absurd rfl hbreak
  | blockComment => exact absurd rfl hcomment
  | blank => exact someOf (by unfold Blank; decide)
  | lineComment => exact (just (by decide)).mul (oneOf fun h => h.1 rfl).kstar
  | integer => exact digits
  | float => exact ((digits.mul (just (by decide))).mul digits).mul exponents.optional
  | string => exact ((just (by decide)).mul (literalUnits _).kstar).mul (just (by decide))
  | char => exact ((just (by decide)).mul (literalUnits _)).mul (just (by decide))
  | name =>
    have hstart : ¬ NameStart '\n' := by unfold NameStart; decide
    have hpart : ¬ NamePart '\n' := by unfold NamePart NameStart Digit; decide
    exact (oneOf hstart).mul (oneOf hpart).kstar
  | word w t => exact just (fixed.1 _ (Pattern.word_mem_all.1 hp))
  | symbol s t => exact just (fixed.2 _ (Pattern.symbol_mem_all.1 hp))

end Unbroken

/-! ## Lexemes before a line break -/

variable {p q : Pattern} {text text' cs mid rest rest' before : List Char} {pieces more : List Piece}
  {ts us : List Lexeme}

/-- No two comments of different lengths start a text. -/
theorem length_eq_of_blockComment (hcs : text' ++ rest' = text ++ rest)
    (htext : text ∈ Pattern.blockComment.language) (htext' : text' ∈ Pattern.blockComment.language) :
    text'.length = text.length := by
  obtain ⟨body, hbody, rfl⟩ := mem_between.1 htext
  obtain ⟨body', hbody', rfl⟩ := mem_between.1 htext'
  simp only [List.append_assoc, List.append_cancel_left_eq] at hcs
  -- Both are closed where the extent of a comment that is opened here ends.
  have hclosed : Closes commentUnits ['*', '/'] 2 (body ++ (['*', '/'] ++ rest))
      (2 + body.length + 2) := ⟨body, hbody, ⟨rest, List.append_assoc ..⟩, rfl⟩
  have hclosed' : Closes commentUnits ['*', '/'] 2 (body ++ (['*', '/'] ++ rest))
      (2 + body'.length + 2) := ⟨body', hbody', ⟨rest', (List.append_assoc ..).trans hcs⟩, rfl⟩
  have hsame := ((commentExtent_closed _ _ _).2 hclosed').symm.trans
    ((commentExtent_closed _ _ _).2 hclosed)
  simp only [Option.some.injEq] at hsame
  simp only [List.length_append, List.length_cons, List.length_nil]
  omega

/-- What fits at the start of a comment is that comment. -/
theorem Pattern.Fits.eq_blockComment {body : List Char} (h : p.Fits text rest)
    (hcs : text ++ rest = '/' :: '*' :: body) : p = .blockComment := by
  obtain ⟨c, text, rfl⟩ := List.exists_cons_of_ne_nil h.ne_nil
  cases text with
  | nil =>
    cases hcs
    exact absurd rfl (h.slash rfl)
  | cons d text =>
    cases hcs
    have hrule := Pattern.family_eq h.pattern h.language
    cases p <;> cases hrule
    rfl

/-- Whether a pattern fits is not changed by a line break after the text. -/
theorem fits_before_lineBreak {after : List Char} :
    p.Fits text (rest ++ '\n' :: after) ↔ p.Fits text rest := by
  have hhead : (rest ++ '\n' :: after).head? = some '*' ↔ rest.head? = some '*' := by
    cases rest <;> simp
  exact ⟨fun h => ⟨h.pattern, h.language, fun hslash => mt hhead.2 (h.slash hslash)⟩,
    fun h => ⟨h.pattern, h.language, fun hslash => mt hhead.1 (h.slash hslash)⟩⟩

/-- What reaches past a line break is no longer than the lexeme before it. -/
theorem Longest.length_le_of_lineBreak {inside : List Char} (h : Longest p text rest)
    (hfits : q.Fits (text ++ rest ++ '\n' :: inside) rest') :
    (text ++ rest ++ '\n' :: inside).length ≤ text.length := by
  have hpos : 0 < text.length := List.length_pos_iff.2 h.fits.ne_nil
  have hq : q = .blockComment := by
    by_contra hcomment
    by_cases hbreak : q = .lineBreak
    · subst hbreak
      have hbreak : text ++ rest ++ '\n' :: inside = ['\n'] := hfits.language
      have hlength := congrArg List.length hbreak
      simp only [List.length_append, List.length_cons, List.length_nil] at hlength
      omega
    · exact Unbroken.language hfits.pattern hbreak hcomment _ hfits.language (by simp)
  subst hq
  obtain ⟨body, _, hcs⟩ := mem_between.1 hfits.language
  rw [List.append_assoc text] at hcs
  have hp : p = .blockComment := (fits_before_lineBreak.2 h.fits).eq_blockComment hcs
  subst hp
  have hprefix : text ++ rest ++ '\n' :: inside ++ rest' = text ++ (rest ++ '\n' :: inside ++ rest') := by
    simp
  exact (length_eq_of_blockComment hprefix h.fits.language hfits.language).le

/-- A lexeme of a text is the lexeme there also when a line break and more come after the text. -/
theorem Longest.before_lineBreak (h : Longest p text rest) (after : List Char) :
    Longest p text (rest ++ '\n' :: after) where
  fits := fits_before_lineBreak.2 h.fits
  longest q text' rest' hcs hfits := by
    rw [← List.append_assoc] at hcs
    rcases List.append_eq_append_iff.1 hcs with ⟨gap, hgap, rfl⟩ | ⟨inside, rfl, hinside⟩
    · exact h.longest q text' gap hgap.symm (fits_before_lineBreak.1 hfits)
    · rcases List.cons_eq_append_iff.1 hinside with ⟨rfl, rfl⟩ | ⟨inside, rfl, _⟩
      · rw [List.append_nil] at hfits ⊢
        have hends : q.Fits (text ++ rest) [] := fits_before_lineBreak.1 hfits
        exact h.longest q _ [] (List.append_nil _) hends
      · exact h.length_le_of_lineBreak hfits
  name hp q hq := h.name hp q (fits_before_lineBreak.1 hq)

/-- A line break is a lexeme, whatever comes after it. -/
theorem longest_lineBreak (rest : List Char) : Longest .lineBreak ['\n'] rest where
  fits := ⟨by simp [Pattern.all], rfl, fun h => by cases h⟩
  longest q text' rest' hcs hfits := by
    have hrule := Pattern.family_eq hfits.pattern hfits.language
    obtain ⟨c, text', rfl⟩ := List.exists_cons_of_ne_nil hfits.ne_nil
    cases hcs
    cases q <;> cases hrule
    have hbreak : '\n' :: text' = ['\n'] := hfits.language
    exact (congrArg List.length hbreak).le
  name h := by cases h

/-! ## Texts before a line break -/

/-- The pieces are the text, up to the rest. -/
theorem Cut.joined_append (h : Cut cs pieces rest) : joined pieces ++ rest = cs := by
  induction h with
  | nil rest => rfl
  | cons _ _ ih =>
    rw [← ih, ← List.append_assoc]
    rfl

/-- The pieces of a text are cut off it also when a line break and more come after it. -/
theorem Cut.before_lineBreak (h : Cut cs pieces rest) (after : List Char) :
    Cut (cs ++ '\n' :: after) pieces (rest ++ '\n' :: after) := by
  induction h with
  | nil rest => exact .nil _
  | cons h _ ih =>
    rw [List.append_assoc]
    exact .cons (h.before_lineBreak after) ih

/-- After other text the pieces have the same tokens, on lines further down. -/
theorem Yields.after (h : Yields before pieces ts) (first : List Char) :
    Yields (first ++ before) pieces (ts.map (Lexeme.reline (first.count '\n' + ·))) := by
  induction h with
  | nil before => exact .nil _
  | skip hskipped _ ih => exact .skip hskipped (by rwa [List.append_assoc])
  | @token before x pieces t ts ht _ ih =>
    have hline : first.count '\n' + (1 + before.count '\n') = 1 + (first ++ before).count '\n' := by
      rw [List.count_append]
      omega
    rw [List.map_cons, Lexeme.reline, hline]
    exact .token ht (by rwa [List.append_assoc])

/-- After a text that has tokens, and a line break, scanning goes on one line further down. -/
theorem ofText_before_lineBreak {s₁ : String} (h : ofText s₁ = .ok ts) (s₂ : String) :
    ofText (s₁ ++ "\n" ++ s₂) =
      scan (1 + (s₁.toList ++ ['\n']).count '\n') ts.reverse s₂.toList := by
  obtain ⟨pieces, us, rest, hcut, hus, hend⟩ := exists_cut s₁.toList []
  have hscan := scan_of_cut hcut hus []
  rcases hend with rfl | ⟨slice, hfails⟩
  · have htokens : ofText s₁ = .ok us := by
      rw [scan, List.append_nil, List.reverse_reverse] at hscan
      exact hscan
    have hsame : us = ts := Except.ok.inj (htokens.symm.trans h)
    have htext : (s₁ ++ "\n" ++ s₂).toList = s₁.toList ++ '\n' :: s₂.toList := by
      simp
    have hjoined : joined pieces = s₁.toList := by
      simpa using hcut.joined_append
    have hbreak := scan_of_longest (longest_lineBreak s₂.toList)
      (1 + s₁.toList.count '\n') ts.reverse
    have hline : 1 + (s₁.toList ++ ['\n']).count '\n' =
        1 + s₁.toList.count '\n' + ['\n'].count '\n' := by
      rw [List.count_append]
      omega
    have hall := scan_of_cut (hcut.before_lineBreak s₂.toList) hus []
    rw [hjoined, hsame, List.append_nil, List.nil_append, List.nil_append] at hall
    rw [ofText, htext, hline]
    exact hall.trans hbreak
  · rw [scan_of_fails hfails] at hscan
    exact absurd (h.symm.trans hscan) (by simp)

/-- **Texts are scanned line by line.** Where a text has tokens, the tokens of that text, a line break and
another text are the tokens of the one followed by those of the other, and these have moved down by one line
and one more for each line break in the first text. If the other text has no tokens, neither do the two
together: the slice to blame is the same, and the line has moved down likewise. -/
theorem lines_are_read_apart (s₁ s₂ : String) (ts : List Lexeme) (h : ofText s₁ = .ok ts) :
    (∀ us, ofText s₂ = .ok us → ofText (s₁ ++ "\n" ++ s₂) =
      .ok (ts ++ us.map (Lexeme.reline (1 + s₁.toList.count '\n' + ·)))) ∧
    ∀ e, ofText s₂ = .error e → ofText (s₁ ++ "\n" ++ s₂) =
      .error ⟨e.problem, 1 + s₁.toList.count '\n' + e.line⟩ := by
  have hcount : (s₁.toList ++ ['\n']).count '\n' = 1 + s₁.toList.count '\n' := by
    rw [List.count_append, Nat.add_comm]
    rfl
  -- The pieces of the second text are the same alone and after the first; only the lines differ.
  obtain ⟨pieces, us, rest, hcut, hus, hend⟩ := exists_cut s₂.toList []
  have halone := scan_of_cut hcut hus []
  have hafter := scan_of_cut hcut (hus.after (s₁.toList ++ ['\n'])) ts.reverse
  rw [List.append_nil, ← ofText_before_lineBreak h, hcount] at hafter
  rcases hend with rfl | ⟨slice, hfails⟩
  · rw [scan] at halone hafter
    rw [List.reverse_append, List.reverse_reverse, List.reverse_reverse] at hafter
    rw [List.append_nil, List.reverse_reverse] at halone
    refine ⟨fun us' hus' => ?_, fun e he => ?_⟩
    · cases halone.symm.trans hus'
      exact hafter
    · exact absurd (halone.symm.trans he) (by simp)
  · rw [scan_of_fails hfails] at halone hafter
    refine ⟨fun us' hus' => ?_, fun e he => ?_⟩
    · exact absurd (halone.symm.trans hus') (by simp)
    · cases halone.symm.trans he
      have hline : 1 + (s₁.toList ++ ['\n'] ++ joined pieces).count '\n' =
          1 + s₁.toList.count '\n' + (1 + ([] ++ joined pieces).count '\n') := by
        rw [List.count_append, hcount, List.nil_append]
        omega
      rw [hafter, hline]

/-- A comment at the end of the first text does not reach into the second one, and the line break in the other
comment is counted. -/
theorem seven_and_eight_apart :
    ofText "/*\n*/ 7 // b" = .ok [⟨.integer 7, 2⟩] ∧
      ofText ("/*\n*/ 7 // b" ++ "\n" ++ "8") = .ok [⟨.integer 7, 2⟩, ⟨.integer 8, 3⟩] ∧
      ofText ("/*\n*/ 7 // b" ++ "\n" ++ "8\n'") = .error ⟨.unrecognized "'", 4⟩ := by
  have hfirst : ofText "/*\n*/ 7 // b" = .ok [⟨.integer 7, 2⟩] := by
    cbv
  have height : ofText "8" = .ok [⟨.integer 8, 1⟩] := by
    cbv
  have hquote : ofText "8\n'" = .error ⟨.unrecognized "'", 2⟩ := by
    cbv
  exact ⟨hfirst, (lines_are_read_apart _ _ _ hfirst).1 _ height,
    (lines_are_read_apart _ _ _ hfirst).2 _ hquote⟩

end Scriptling.Token
