import Scriptling.Proofs.Token.Lengths

/-!
# Scriptling.Proofs.Token.Munch -- the rule that reaches furthest

A rule stands for one pattern or for a family of them: the words and the names are one rule, and so are all
symbols. Each rule reaches as far into a text as one of its patterns fits (`Reaches`). A text fits patterns
of one rule only, so the rule that reaches furthest is that of the lexeme: `munch_of_longest` and
`longest_of_munch` say that `Rule.munch` finds the lexeme, and `munch_eq_none_iff` that it finds none only
where there is none.
-/

set_option autoImplicit false

namespace Scriptling.Token

open Computability Rule

/-- The rule that a pattern belongs to. -/
def Pattern.rule : Pattern → Rule
  | .blank => .blank
  | .lineBreak => .lineBreak
  | .lineComment => .lineComment
  | .blockComment => .blockComment
  | .integer => .integer
  | .float => .float
  | .string => .string
  | .char => .char
  | .name | .word _ _ => .word
  | .symbol _ _ => .symbol

/-! ## Texts belong to one rule -/

/-- The rule that a text belongs to if it is a lexeme. -/
def family : List Char → Option Rule
  | [] => none
  | c :: cs =>
    if c = '\n' then some .lineBreak
    else if c = '"' then some .string
    else if c = '\'' then some .char
    else if isBlank c then some .blank
    else if isWordStart c then some .word
    else if c.isDigit then some (if cs.all Char.isDigit then .integer else .float)
    else if c = '/' ∧ cs.head? = some '/' then some .lineComment
    else if c = '/' ∧ cs.head? = some '*' then some .blockComment
    else some .symbol

theorem family_blank {c : Char} (hc : Blank c) (cs : List Char) : family (c :: cs) = some .blank := by
  simp only [Blank, List.mem_cons, List.not_mem_nil, or_false] at hc
  rcases hc with rfl | rfl | rfl | rfl <;> rfl

theorem family_name {c : Char} (hc : NameStart c) (cs : List Char) :
    family (c :: cs) = some .word := by
  have hstart := (isWordStart_iff c).2 hc
  -- None of the characters that are asked for first starts a name.
  have hne (d : Char) (hd : isWordStart d = false) : c ≠ d := fun h => by
    rw [h, hd] at hstart
    cases hstart
  have hblank : isBlank c = false := by
    simp [isBlank, hne ' ' rfl, hne '\t' rfl, hne '\r' rfl, hne '\x0c' rfl]
  simp [family, hne '\n' rfl, hne '"' rfl, hne '\'' rfl, hblank, hstart]

theorem family_digit {c : Char} (hc : Digit c) (cs : List Char) :
    family (c :: cs) = some (if cs.all Char.isDigit then .integer else .float) := by
  have hdigit := (isDigit_iff c).2 hc
  -- None of the characters that are asked for first is a digit.
  have hne (d : Char) (hd : d.isDigit = false) : c ≠ d := fun h => by
    rw [h, hd] at hdigit
    cases hdigit
  have hblank : isBlank c = false := by
    simp [isBlank, hne ' ' rfl, hne '\t' rfl, hne '\r' rfl, hne '\x0c' rfl]
  have hword : isWordStart c = false := by
    refine Bool.eq_false_iff.2 fun hstart => ?_
    rcases (isWordStart_iff c).1 hstart with h | h | rfl
    · exact absurd (Char.le_trans h.1 hc.2) (by decide)
    · exact absurd (Char.le_trans h.1 hc.2) (by decide)
    · exact absurd hdigit (by decide)
  simp [family, hne '\n' rfl, hne '"' rfl, hne '\'' rfl, hblank, hword, hdigit]

theorem family_word : ∀ e ∈ words, family e.1 = some .word := by decide

theorem family_symbol : ∀ e ∈ symbols, family e.1 = some .symbol := by decide

namespace Pattern

theorem word_mem_all {text : List Char} {t : Token} : .word text t ∈ all ↔ (text, t) ∈ words := by
  simp [all]

theorem symbol_mem_all {text : List Char} {t : Token} : .symbol text t ∈ all ↔ (text, t) ∈ symbols := by
  simp [all]

/-- What fits a pattern belongs to its rule. -/
theorem family_eq {p : Pattern} (hp : p ∈ all) {text : List Char} (htext : text ∈ p.language) :
    family text = some p.rule := by
  cases p with
  | blank =>
    obtain ⟨c, hc, b, _, rfl⟩ := mem_oneOf_mul.1 htext
    exact family_blank hc b
  | lineBreak =>
    cases htext
    rfl
  | lineComment =>
    obtain ⟨b, _, rfl⟩ := mem_just_mul.1 htext
    rfl
  | blockComment =>
    obtain ⟨b, _, rfl⟩ := mem_between.1 htext
    rfl
  | integer =>
    obtain ⟨hne, hall⟩ := mem_someOf.1 htext
    obtain ⟨c, cs, rfl⟩ := List.exists_cons_of_ne_nil hne
    rw [List.forall_mem_cons] at hall
    rw [family_digit hall.1, if_pos (List.all_eq_true.2 fun d hd => (isDigit_iff d).2 (hall.2 d hd))]
    rfl
  | float =>
    obtain ⟨whole, hwhole, fraction, _, x, _, rfl⟩ := mem_float.1 htext
    obtain ⟨hne, hall⟩ := mem_someOf.1 hwhole
    obtain ⟨c, cs, rfl⟩ := List.exists_cons_of_ne_nil hne
    rw [List.cons_append, family_digit (hall c List.mem_cons_self), if_neg (by simp)]
    rfl
  | string =>
    obtain ⟨b, _, rfl⟩ := mem_between.1 htext
    rfl
  | char =>
    obtain ⟨unit, _, rfl⟩ := mem_char.1 htext
    rfl
  | name =>
    obtain ⟨c, hc, b, _, rfl⟩ := mem_oneOf_mul.1 htext
    exact family_name hc b
  | word w t =>
    cases htext
    exact family_word _ (word_mem_all.1 hp)
  | symbol s t =>
    cases htext
    exact family_symbol _ (symbol_mem_all.1 hp)

variable {p q : Pattern} {text rest : List Char}

theorem Fits.ne_nil (h : p.Fits text rest) : text ≠ [] := by
  rintro rfl
  have hfamily := family_eq h.pattern h.language
  cases hfamily

/-- A text fits patterns of one rule only. -/
theorem Fits.rule_eq (h : p.Fits text rest) (k : q.Fits text rest) : p.rule = q.rule :=
  Option.some.inj ((family_eq h.pattern h.language).symm.trans (family_eq k.pattern k.language))

/-- A slash alone is a symbol. -/
theorem fits_of_rule_ne_symbol (hp : p ∈ all) (hrule : p.rule ≠ .symbol) (htext : text ∈ p.language)
    (rest : List Char) : p.Fits text rest := by
  refine ⟨hp, htext, ?_⟩
  rintro rfl
  have hfamily := family_eq hp htext
  exact absurd (Option.some.inj hfamily).symm hrule

end Pattern

/-! ## Rules reach as far as their patterns fit -/

/-- The rule measures how far its patterns fit the start of the text. -/
structure Reaches (r : Rule) (cs : List Char) : Prop where
  attained : ∀ n, r.length? cs = some n → ∃ p text rest, p.rule = r ∧ text ++ rest = cs ∧
    text.length = n ∧ Pattern.Fits p text rest
  bound : ∀ p text rest, p.rule = r → text ++ rest = cs → Pattern.Fits p text rest →
    ∃ n, r.length? cs = some n ∧ text.length ≤ n

/-- Every word could be a name. -/
theorem word_mem_name : ∀ e ∈ words, e.1 ∈ Pattern.name.language := by
  have hchars : ∀ e ∈ words, e.1.head?.any isWordStart && e.1.tail.all isWordPart := by decide
  intro e he
  have hparts := hchars e he
  rw [Bool.and_eq_true] at hparts
  cases htext : e.1 with
  | nil =>
    rw [htext] at hparts
    cases hparts.1
  | cons c cs =>
    rw [htext] at hparts
    exact mem_oneOf_mul.2 ⟨c, (isWordStart_iff c).1 hparts.1, cs, mem_kstar_oneOf.2 fun d hd =>
      (isWordPart_iff d).1 (List.all_eq_true.1 hparts.2 d hd), rfl⟩

/-- The pattern that all lexemes of a rule fit. Symbols have none. -/
def widest? : Rule → Option Pattern
  | .blank => some .blank
  | .lineBreak => some .lineBreak
  | .lineComment => some .lineComment
  | .blockComment => some .blockComment
  | .integer => some .integer
  | .float => some .float
  | .string => some .string
  | .char => some .char
  | .word => some .name
  | .symbol => none

theorem mem_widest {p q : Pattern} (hq : q ∈ Pattern.all) (h : widest? q.rule = some p)
    {text : List Char} (htext : text ∈ q.language) : text ∈ p.language := by
  cases q with
  | word w t =>
    cases h
    cases htext
    exact word_mem_name _ (Pattern.word_mem_all.1 hq)
  | symbol s t => cases h
  | _ =>
    cases h
    exact htext

/-- So it is enough to measure that pattern. -/
theorem reaches_of_measures {r : Rule} {p : Pattern} (hr : widest? r = some p) {cs : List Char}
    (h : Measures p.language cs (r.length? cs)) : Reaches r cs where
  attained n hn := by
    obtain ⟨text, htext, ⟨rest, hrest⟩, hlength⟩ := h.attained n hn
    obtain ⟨hp, hrule, hsymbol⟩ : p ∈ Pattern.all ∧ p.rule = r ∧ p.rule ≠ .symbol := by
      cases r <;> cases hr <;> exact ⟨by simp [Pattern.all], rfl, Rule.noConfusion⟩
    exact ⟨p, text, rest, hrule, hrest, hlength, Pattern.fits_of_rule_ne_symbol hp hsymbol htext rest⟩
  bound q text rest hq hcs hfits :=
    h.bound text (mem_widest hfits.pattern (hq ▸ hr) hfits.language) ⟨rest, hcs⟩

/-- Rules whose lexemes all start with the same characters apply nowhere else. -/
theorem length?_eq_none {r : Rule} {opening cs : List Char}
    (hr : (r, opening) ∈ [(Rule.lineBreak, ['\n']), (.lineComment, ['/', '/']),
      (.blockComment, ['/', '*']), (.string, ['"'])])
    (hcs : ¬ opening <+: cs) : r.length? cs = none := by
  simp only [List.mem_cons, Prod.mk.injEq, List.not_mem_nil, or_false] at hr
  rcases hr with ⟨rfl, rfl⟩ | ⟨rfl, rfl⟩ | ⟨rfl, rfl⟩ | ⟨rfl, rfl⟩
  all_goals
    unfold length?
    split
    all_goals simp_all

theorem measures_lineBreak (cs : List Char) :
    Measures Pattern.lineBreak.language cs (length? .lineBreak cs) := by
  by_cases h : ['\n'] <+: cs
  · obtain ⟨cs, rfl⟩ := h
    refine ⟨fun n hn => ?_, fun text htext _ => ?_⟩
    · cases hn
      exact ⟨['\n'], rfl, List.prefix_append _ cs, rfl⟩
    · cases htext
      exact ⟨1, rfl, le_rfl⟩
  · rw [length?_eq_none (by simp) h]
    refine measures_none fun text htext => ?_
    cases htext
    exact h

theorem measures_lineComment (cs : List Char) :
    Measures Pattern.lineComment.language cs (length? .lineComment cs) := by
  by_cases h : ['/', '/'] <+: cs
  · obtain ⟨cs, rfl⟩ := h
    exact (measures_kstar (fun c => by simp) cs).just_mul ['/', '/']
  · rw [length?_eq_none (by simp) h]
    exact measures_just_mul_none h

theorem measures_blockComment (cs : List Char) :
    Measures Pattern.blockComment.language cs (length? .blockComment cs) := by
  by_cases h : ['/', '*'] <+: cs
  · obtain ⟨cs, rfl⟩ := h
    exact measures_delimited commentExtent_closed cs
  · have hlanguage : Pattern.blockComment.language =
        just ['/', '*'] * (commentUnits∗ * just ['*', '/']) := mul_assoc _ _ _
    rw [length?_eq_none (by simp) h, hlanguage]
    exact measures_just_mul_none h

theorem measures_string (cs : List Char) :
    Measures Pattern.string.language cs (length? .string cs) := by
  by_cases h : ['"'] <+: cs
  · obtain ⟨cs, rfl⟩ := h
    exact measures_delimited stringExtent_closed cs
  · have hlanguage : Pattern.string.language =
        just ['"'] * ((literalUnits '"')∗ * just ['"']) := mul_assoc _ _ _
    rw [length?_eq_none (by simp) h, hlanguage]
    exact measures_just_mul_none h

/-! ### Symbols -/

theorem symbol?_eq_find? {cs : List Char} (h : ¬ ['/', '*'] <+: cs) :
    symbol? cs = symbols.find? fun e => e.1.isPrefixOf cs := by
  unfold symbol?
  split
  · exact absurd ⟨_, rfl⟩ h
  · rfl

/-- The only symbol that a comment starts with is the slash. -/
theorem slash_of_prefix {e : List Char × Token} (he : e ∈ symbols) {cs : List Char}
    (hstart : e.1 <+: '/' :: '*' :: cs) : e.1 = ['/'] := by
  have hshort : ∀ e ∈ symbols, e.1.length ≤ 2 ∧ (e.1 <+: ['/', '*'] → e.1 = ['/']) := by decide
  exact (hshort e he).2
    (List.prefix_of_prefix_length_le hstart (List.prefix_append ['/', '*'] cs) (hshort e he).1)

/-- Of the symbols that a text starts with the one that comes first is the longest. -/
theorem length_le_of_find? {p : List Char × Token → Bool} {e e' : List Char × Token}
    (hfind : symbols.find? p = some e) (he' : e' ∈ symbols) (hp : p e' = true) :
    e'.1.length ≤ e.1.length := by
  have hsorted : symbols.Pairwise fun a b => b.1.length ≤ a.1.length := by decide
  obtain ⟨_, before, after, hsymbols, hbefore⟩ := List.find?_eq_some_iff_append.1 hfind
  rw [hsymbols] at he' hsorted
  rcases List.mem_append.1 he' with h | h
  · have hnot := hbefore e' h
    rw [hp] at hnot
    cases hnot
  · rcases List.mem_cons.1 h with rfl | h
    · exact le_rfl
    · exact List.rel_of_pairwise_cons (List.pairwise_append.1 hsorted).2.1 h

theorem reaches_symbol (cs : List Char) : Reaches .symbol cs where
  attained n hn := by
    obtain ⟨e, he, rfl⟩ := Option.map_eq_some_iff.1 hn
    by_cases hcomment : ['/', '*'] <+: cs
    · obtain ⟨cs, rfl⟩ := hcomment
      cases he
    · rw [symbol?_eq_find? hcomment] at he
      have hstart : e.1.isPrefixOf cs = true :=
        List.find?_some (p := fun e : List Char × Token => e.1.isPrefixOf cs) he
      obtain ⟨rest, hrest⟩ := List.isPrefixOf_iff_prefix.1 hstart
      refine ⟨.symbol e.1 e.2, e.1, rest, rfl, hrest, rfl,
        Pattern.symbol_mem_all.2 (List.mem_of_find?_eq_some he), rfl, fun hslash hstar => ?_⟩
      obtain ⟨rest, rfl⟩ := List.head?_eq_some_iff.1 hstar
      exact hcomment ⟨rest, by rw [← hrest, hslash]; rfl⟩
  bound p text rest hp hcs hfits := by
    cases p with
    | symbol s t =>
      have htext : text = s := hfits.language
      subst htext
      have hmem := Pattern.symbol_mem_all.1 hfits.pattern
      have hstart : text.isPrefixOf cs = true := List.isPrefixOf_iff_prefix.2 ⟨rest, hcs⟩
      -- Where a comment is opened, the only symbol that could stand there is the slash, which does not fit.
      by_cases hcomment : ['/', '*'] <+: cs
      · obtain ⟨after, rfl⟩ := hcomment
        have hslash : text = ['/'] := slash_of_prefix hmem ⟨rest, hcs⟩
        subst hslash
        cases hcs
        exact absurd rfl (hfits.slash rfl)
      · cases hfind : symbols.find? fun e => e.1.isPrefixOf cs with
        | none => exact absurd hstart (List.find?_eq_none.1 hfind _ hmem)
        | some e =>
          refine ⟨e.1.length, ?_, length_le_of_find? hfind hmem hstart⟩
          show (symbol? cs).map _ = _
          rw [symbol?_eq_find? hcomment, hfind]
          rfl
    | _ => cases hp

/-! ### All rules -/

theorem reaches (r : Rule) (cs : List Char) : Reaches r cs := by
  cases r with
  | blank => exact reaches_of_measures (p := .blank) rfl (measures_someOf isBlank_iff cs)
  | lineBreak => exact reaches_of_measures rfl (measures_lineBreak cs)
  | lineComment => exact reaches_of_measures rfl (measures_lineComment cs)
  | blockComment => exact reaches_of_measures rfl (measures_blockComment cs)
  | integer => exact reaches_of_measures (p := .integer) rfl (measures_someOf isDigit_iff cs)
  | float => exact reaches_of_measures rfl (measures_float cs)
  | string => exact reaches_of_measures rfl (measures_string cs)
  | char => exact reaches_of_measures rfl (measures_char cs)
  | word => exact reaches_of_measures rfl (measures_name cs)
  | symbol => exact reaches_symbol cs

/-! ## The rule that reaches furthest -/

/-- What `munch` keeps after one more rule. -/
def better (cs : List Char) (best : Option (Rule × Nat)) (r : Rule) : Option (Rule × Nat) :=
  match r.length? cs, best with
  | some n, some (_, m) => if m < n then some (r, n) else best
  | some n, none => some (r, n)
  | none, _ => best

/-- What is kept is a rule that reaches as far as `n`. -/
def Covers (best : Option (Rule × Nat)) (n : Nat) : Prop := ∃ r m, best = some (r, m) ∧ n ≤ m

section

variable {cs : List Char} {best : Option (Rule × Nat)} {r : Rule} {n : Nat}

/-- What is kept is the last rule or what was kept before. -/
theorem better_eq_some {r' : Rule} (h : better cs best r = some (r', n)) :
    r' = r ∧ r.length? cs = some n ∨ best = some (r', n) := by
  unfold better at h
  split at h
  · rename_i k _ hk
    split at h
    · cases h
      exact .inl ⟨rfl, hk⟩
    · exact .inr h
  · rename_i k hk
    cases h
    exact .inl ⟨rfl, hk⟩
  · exact .inr h

theorem covers_better (h : Covers best n ∨ r.length? cs = some n) : Covers (better cs best r) n := by
  unfold better
  rcases h with ⟨r', m, rfl, hle⟩ | h
  · cases r.length? cs with
    | none => exact ⟨r', m, rfl, hle⟩
    | some k =>
      dsimp only
      split
      · rename_i hmk
        exact ⟨r, k, rfl, hle.trans hmk.le⟩
      · exact ⟨r', m, rfl, hle⟩
  · rw [h]
    rcases best with _ | ⟨r', m⟩
    · exact ⟨r, n, rfl, le_rfl⟩
    · dsimp only
      split
      · exact ⟨r, n, rfl, le_rfl⟩
      · rename_i hmn
        exact ⟨r', m, rfl, not_lt.1 hmn⟩

end

/-- What is kept in the end applies, and it reaches as far as any of the rules. -/
theorem foldl_better (cs : List Char) (rs : List Rule) (best : Option (Rule × Nat)) :
    (∀ r n, rs.foldl (better cs) best = some (r, n) → r.length? cs = some n ∨ best = some (r, n)) ∧
    ∀ n, Covers best n ∨ (∃ r ∈ rs, r.length? cs = some n) →
      Covers (rs.foldl (better cs) best) n := by
  -- On the rules, for whatever has been kept of those before.
  induction rs generalizing best with
  | nil =>
    refine ⟨fun r n h => .inr h, fun n h => ?_⟩
    rcases h with h | ⟨_, hr, _⟩
    · exact h
    · cases hr
  | cons r rs ih =>
    obtain ⟨happlies, hfurthest⟩ := ih (better cs best r)
    refine ⟨fun r' n h => ?_, fun n h => hfurthest n ?_⟩
    · rcases happlies r' n h with h | h
      · exact .inl h
      · rcases better_eq_some h with ⟨rfl, h⟩ | h
        · exact .inl h
        · exact .inr h
    · rcases h with h | ⟨r', hr', h⟩
      · exact .inl (covers_better (.inl h))
      · rcases List.mem_cons.1 hr' with rfl | hr'
        · exact .inl (covers_better (.inr h))
        · exact .inr ⟨r', hr', h⟩

theorem length?_of_munch {cs : List Char} {r : Rule} {n : Nat} (h : munch cs = some (r, n)) :
    r.length? cs = some n := by
  rcases (foldl_better cs Rule.all none).1 r n h with h | h
  · exact h
  · cases h

theorem covers_munch {cs : List Char} {r : Rule} {n : Nat} (h : r.length? cs = some n) :
    Covers (munch cs) n := by
  have hr : r ∈ Rule.all := by
    cases r <;> decide
  exact (foldl_better cs Rule.all none).2 n (.inr ⟨r, hr, h⟩)

theorem munch_of_longest {p : Pattern} {text rest : List Char} (h : Longest p text rest) :
    munch (text ++ rest) = some (p.rule, text.length) := by
  obtain ⟨m, hm, htext⟩ := (reaches p.rule _).bound p text rest rfl rfl h.fits
  obtain ⟨r, n, hmunch, hmn⟩ := covers_munch hm
  obtain ⟨q, text', rest', hq, hcs, rfl, hfits⟩ := (reaches r _).attained n (length?_of_munch hmunch)
  have hle := h.longest q text' rest' hcs hfits
  -- Neither of the two texts is the longer one, so they are the same, and of one rule.
  obtain ⟨rfl, rfl⟩ := List.append_inj hcs (by omega)
  rw [hmunch, ← hq, hfits.rule_eq h.fits]

theorem longest_of_munch {cs : List Char} {r : Rule} {n : Nat} (h : munch cs = some (r, n)) :
    ∃ p text rest, p.rule = r ∧ text ++ rest = cs ∧ text.length = n ∧ Longest p text rest := by
  obtain ⟨p, text, rest, hp, hcs, hlength, hfits⟩ := (reaches r cs).attained n (length?_of_munch h)
  have hlongest (q : Pattern) (text' rest' : List Char) (hcs' : text' ++ rest' = text ++ rest)
      (hfits' : q.Fits text' rest') : text'.length ≤ text.length := by
    obtain ⟨m, hm, hle⟩ := (reaches q.rule cs).bound q text' rest' rfl (hcs'.trans hcs) hfits'
    obtain ⟨_, _, hmunch, hmn⟩ := covers_munch hm
    rw [h] at hmunch
    cases hmunch
    omega
  -- A word of fixed meaning is preferred to the name that it could be.
  by_cases hword : ∃ q : Pattern, q.Fits text rest ∧ q ≠ .name
  · obtain ⟨q, hq, hname⟩ := hword
    exact ⟨q, text, rest, (hq.rule_eq hfits).trans hp, hcs, hlength, hq, hlongest,
      fun h => absurd h hname⟩
  · refine ⟨p, text, rest, hp, hcs, hlength, hfits, hlongest, fun _ q hq => ?_⟩
    by_contra hname
    exact hword ⟨q, hq, hname⟩

theorem munch_eq_none_iff {cs : List Char} : munch cs = none ↔ Unmatched cs := by
  constructor
  · intro h p text rest hcs hfits
    obtain ⟨m, hm, _⟩ := (reaches p.rule cs).bound p text rest rfl hcs hfits
    obtain ⟨_, _, hmunch, _⟩ := covers_munch hm
    rw [h] at hmunch
    cases hmunch
  · intro h
    cases hmunch : munch cs with
    | none => rfl
    | some best =>
      obtain ⟨p, text, rest, _, hcs, _, hlongest⟩ := longest_of_munch hmunch
      exact absurd hlongest.fits (h p text rest hcs)

end Scriptling.Token
