import Scriptling.Proofs.Token.Munch

/-!
# Scriptling.Proofs.Token.Readings -- what lexemes read as

A rule reads its lexemes as their patterns say: `token?_of_reads` for those that have a meaning and
`token?_of_meaningless` for the others. There is no third kind (`skipped_or_reads_or_meaningless`).
-/

set_option autoImplicit false

namespace Scriptling.Token

open Computability Rule

/-! ## Integers -/

theorem value?_eq_some {cs : List Char} (hcs : cs ∈ someOf Digit) :
    Digits.value? cs = some (Digits.value cs) := by
  obtain ⟨hne, hall⟩ := mem_someOf.1 hcs
  unfold Digits.value?
  have hnot : ¬(cs.isEmpty || cs.any fun c => !c.isDigit) = true := by
    simp only [Bool.or_eq_true, List.isEmpty_iff, List.any_eq_true, Bool.not_eq_true', not_or,
      not_exists, not_and, Bool.not_eq_false]
    exact ⟨hne, fun c hc => (isDigit_iff c).2 (hall c hc)⟩
  rw [if_neg hnot]

theorem ofDigits?_of_toInt {cs : List Char} (hcs : cs ∈ someOf Digit) {w : Word}
    (hw : w.toInt = Digits.value cs) : Word.ofDigits? cs = some w := by
  rw [Word.ofDigits?, value?_eq_some hcs, Option.bind_some, ← hw, Word.ofInt?,
    if_pos ⟨Int64.minValue_le_toInt w, Int64.toInt_le w⟩, Int64.ofInt_toInt]

theorem ofDigits?_of_lt {cs : List Char} (hcs : cs ∈ someOf Digit)
    (h : Int64.maxValue.toInt < Digits.value cs) : Word.ofDigits? cs = none := by
  rw [Word.ofDigits?, value?_eq_some hcs, Option.bind_some, Word.ofInt?, if_neg fun hr => ?_]
  omega

/-! ## Floats -/

theorem exponent?_of_exponent {cs : List Char} {e : Int} (h : Exponent cs e) :
    Decimal.exponent? cs = some e := by
  have hvalue {ds : List Char} (hds : ds ∈ someOf Digit) := value?_eq_some hds
  cases h with
  | none => rfl
  | @unsigned e ds he hds =>
    obtain ⟨d, ds, rfl⟩ := List.exists_cons_of_ne_nil (mem_someOf.1 hds).1
    have hsign : d ≠ '+' ∧ d ≠ '-' := ((mem_someOf.1 hds).2 d List.mem_cons_self).ne_sign
    rw [Decimal.exponent?, if_pos (by simpa using he), hvalue hds]
    · rfl
    -- What comes after the letter is a digit, and so no sign.
    · exact fun _ h => hsign.2 (List.cons.inj h).1
    · exact fun _ h => hsign.1 (List.cons.inj h).1
  | positive he hds =>
    rw [Decimal.exponent?, if_pos (by simpa using he), hvalue hds]
    rfl
  | negative he hds =>
    rw [Decimal.exponent?, if_pos (by simpa using he), hvalue hds]
    rfl

/-- The part of a float from the exponent on starts with no digit. -/
theorem not_digit_of_exponent {c : Char} {cs : List Char} {e : Int} (h : Exponent (c :: cs) e) :
    c.isDigit = false := by
  have hc : c ∈ ['e', 'E'] := by
    cases h with
    | unsigned he _ => exact he
    | positive he _ => exact he
    | negative he _ => exact he
  exact isDigit_letter hc

theorem ofChars?_float {whole fraction cs : List Char} {e : Int} (hwhole : whole ∈ someOf Digit)
    (hfraction : fraction ∈ someOf Digit) (hcs : Exponent cs e) :
    Decimal.ofChars? (whole ++ '.' :: fraction ++ cs) =
      some ⟨Digits.value (whole ++ fraction), e - fraction.length⟩ := by
  have hdigits {ds : List Char} (hds : ds ∈ someOf Digit) : ∀ c ∈ ds, c.isDigit = true :=
    fun c hc => (isDigit_iff c).2 ((mem_someOf.1 hds).2 c hc)
  have htake : cs.takeWhile Char.isDigit = [] ∧ cs.dropWhile Char.isDigit = cs := by
    cases cs with
    | nil => exact ⟨rfl, rfl⟩
    | cons c cs =>
      have hc := not_digit_of_exponent hcs
      exact ⟨List.takeWhile_cons_of_neg (by simp [hc]), List.dropWhile_cons_of_neg (by simp [hc])⟩
  unfold Decimal.ofChars?
  rw [List.append_assoc, List.takeWhile_append_of_pos (hdigits hwhole),
    List.dropWhile_append_of_pos (hdigits hwhole)]
  -- The point ends the digits before it, and the exponent, if there is one, those after it.
  have hpoint : ('.' :: (fraction ++ cs)).takeWhile Char.isDigit = [] := rfl
  have hpoint' : ('.' :: (fraction ++ cs)).dropWhile Char.isDigit = '.' :: (fraction ++ cs) := rfl
  rw [List.cons_append, hpoint, hpoint', List.append_nil]
  simp only [List.takeWhile_append_of_pos (hdigits hfraction),
    List.dropWhile_append_of_pos (hdigits hfraction), htake.1, htake.2, List.append_nil,
    exponent?_of_exponent hcs]
  have hne : whole.isEmpty = false := List.isEmpty_eq_false_iff.2 (mem_someOf.1 hwhole).1
  rw [hne]
  rfl

/-- Every exponent has a meaning. -/
theorem exists_exponent {cs : List Char} (h : cs ∈ optional exponents) : ∃ e, Exponent cs e := by
  rcases mem_optional.1 h with rfl | h
  · exact ⟨0, .none⟩
  · obtain ⟨e, he, ds, hds, rfl | ⟨s, hs, rfl⟩⟩ := mem_exponents.1 h
    · exact ⟨_, .unsigned he hds⟩
    · rcases List.mem_pair.1 hs with rfl | rfl
      · exact ⟨_, .positive he hds⟩
      · exact ⟨_, .negative he hds⟩

/-! ## Text between quotes -/

theorem decode_cons {c : Char} (hc : c ≠ '\\') (cs : List Char) :
    Text.Quoted.decode (c :: cs) = (Text.Quoted.decode cs).map (c :: ·) := by
  rw [Text.Quoted.decode]
  all_goals simp [hc]

theorem decode_of_decodes {cs ds : List Char} (h : Decodes cs ds) :
    Text.Quoted.decode cs = some ds := by
  induction h with
  | nil => rfl
  | plain hc _ ih =>
    rw [decode_cons hc, ih]
    rfl
  | escape hc _ ih =>
    rw [Text.Quoted.decode, hc, ih]
    rfl

/-- An escape that is not known makes a text meaningless, whatever stands before it. -/
theorem decode_eq_none {quote : Char} {before : List Char} (hbefore : before ∈ (literalUnits quote)∗)
    {c : Char} (hc : Text.Quoted.unescape? c = none) (after : List Char) :
    Text.Quoted.decode (before ++ '\\' :: c :: after) = none := by
  refine kstar_induction (P := fun before =>
    Text.Quoted.decode (before ++ '\\' :: c :: after) = none) ?_ ?_ hbefore
  · rw [List.nil_append, Text.Quoted.decode, hc]
    rfl
  · intro unit hunit body _ ih
    rcases mem_literalUnits.1 hunit with ⟨d, ⟨_, hd, _⟩, rfl⟩ | ⟨d, _, rfl⟩
    · rw [List.append_assoc, List.singleton_append, decode_cons hd, ih]
      rfl
    · show Text.Quoted.decode ('\\' :: d :: (body ++ '\\' :: c :: after)) = none
      rw [Text.Quoted.decode, ih]
      cases Text.Quoted.unescape? d <;> rfl

theorem decodes_or_unknown {quote : Char} {cs : List Char} (hcs : cs ∈ (literalUnits quote)∗) :
    (∃ ds, Decodes cs ds) ∨ ∃ before ∈ (literalUnits quote)∗, ∃ c after,
      cs = before ++ '\\' :: c :: after ∧ Text.Quoted.unescape? c = none := by
  refine kstar_induction (P := fun cs => (∃ ds, Decodes cs ds) ∨
    ∃ before ∈ (literalUnits quote)∗, ∃ c after,
      cs = before ++ '\\' :: c :: after ∧ Text.Quoted.unescape? c = none) (.inl ⟨[], .nil⟩) ?_ hcs
  rintro unit hunit body _ (⟨ds, hds⟩ | ⟨before, hbefore, c, after, rfl, hc⟩)
  · rcases mem_literalUnits.1 hunit with ⟨d, ⟨_, hd, _⟩, rfl⟩ | ⟨d, _, rfl⟩
    · exact .inl ⟨d :: ds, .plain hd hds⟩
    · cases hd : Text.Quoted.unescape? d with
      | none => exact .inr ⟨[], Language.nil_mem_kstar _, d, body, rfl, hd⟩
      | some d' => exact .inl ⟨d' :: ds, .escape hd hds⟩
  · have hsplit : unit ++ (before ++ '\\' :: c :: after) = unit ++ before ++ '\\' :: c :: after :=
      (List.append_assoc _ _ _).symm
    exact .inr ⟨unit ++ before, append_mem_kstar hunit hbefore, c, after, hsplit, hc⟩

theorem inner_quoted (quote : Char) (cs : List Char) : Rule.inner (quote :: cs ++ [quote]) = cs := by
  unfold Rule.inner
  rw [List.cons_append, List.drop_succ_cons, List.drop_zero, List.dropLast_concat]

/-! ## Words and symbols -/

theorem wordToken_word : ∀ e ∈ words, wordToken (String.ofList e.1) = e.2 := by decide

theorem symbol?_symbol : ∀ e ∈ symbols, symbol? e.1 = some e := by decide

/-- What is no word is a name. -/
theorem wordToken_name {w : String} (h : ∀ t, (w.toList, t) ∉ words) :
    wordToken w = .identifier w := by
  have hreserved : reserved.lookup w = none := by
    cases hlookup : reserved.lookup w with
    | none => rfl
    | some t =>
      obtain ⟨before, after, hsplit, _⟩ := List.lookup_eq_some_iff.1 hlookup
      have hmem : (w, t) ∈ reserved := by
        rw [hsplit]
        simp
      exact absurd (List.mem_append_left _ (List.mem_map_of_mem hmem)) (h t)
  have hkeyword : (Keyword.all.find? fun k => k.text == w) = none := by
    refine List.find?_eq_none.2 fun k hk hkw => h (.keyword k) ?_
    rw [← eq_of_beq hkw]
    exact List.mem_append_right _ (List.mem_map_of_mem hk)
  unfold wordToken
  rw [hreserved, hkeyword]

/-! ## All lexemes -/

variable {p : Pattern} {text rest : List Char} {t : Token}

theorem Pattern.isSkipped_rule (p : Pattern) : p.rule.isSkipped = p.isSkipped := by
  cases p <;> rfl

theorem Pattern.Reads.not_skipped (h : p.Reads text t) : p.isSkipped = false := by
  cases h <;> rfl

theorem Pattern.Meaningless.not_skipped (h : p.Meaningless text) : p.isSkipped = false := by
  cases h <;> rfl

/-- A lexeme that stands for a token is read as it. -/
theorem token?_of_reads (h : Longest p text rest) (ht : p.Reads text t) :
    p.rule.token? text = some t := by
  cases ht with
  | integer hw =>
    show (Word.ofDigits? text).map Token.integer = _
    rw [ofDigits?_of_toInt h.fits.language hw]
    rfl
  | float hwhole hfraction hexponent =>
    show (Decimal.ofChars? _).map _ = _
    rw [ofChars?_float hwhole hfraction hexponent]
    rfl
  | string hdecodes =>
    show (Text.Quoted.decode (Rule.inner _)).map _ = _
    rw [inner_quoted, decode_of_decodes hdecodes]
    rfl
  | char hdecodes =>
    show Rule.token? .char _ = _
    rw [Rule.token?, inner_quoted, decode_of_decodes hdecodes]
  | name =>
    show some (wordToken (String.ofList text)) = _
    rw [wordToken_name fun t ht => ?_]
    rw [String.toList_ofList] at ht
    -- A word of fixed meaning would be the lexeme instead.
    have hword : (Pattern.word text t).Fits text rest :=
      ⟨Pattern.word_mem_all.2 ht, rfl, h.fits.slash⟩
    exact Pattern.noConfusion (h.name rfl _ hword)
  | word => exact congrArg some (wordToken_word _ (Pattern.word_mem_all.1 h.fits.pattern))
  | symbol =>
    show (symbol? text).map _ = _
    rw [symbol?_symbol _ (Pattern.symbol_mem_all.1 h.fits.pattern)]
    rfl

/-- A lexeme without a meaning is not read. -/
theorem token?_of_meaningless (h : Longest p text rest) (ht : p.Meaningless text) :
    p.rule.token? text = none := by
  cases ht with
  | integer hlt =>
    show (Word.ofDigits? text).map Token.integer = _
    rw [ofDigits?_of_lt h.fits.language hlt]
    rfl
  | @string before after c hbefore hc =>
    show (Text.Quoted.decode (Rule.inner _)).map _ = _
    rw [List.cons_append, inner_quoted, decode_eq_none hbefore hc]
    rfl
  | @char c hc =>
    have hnil : [] ∈ (literalUnits '\'')∗ := Language.nil_mem_kstar _
    have hdecode : Text.Quoted.decode ['\\', c] = none := decode_eq_none hnil hc []
    have hinner : Rule.inner ['\'', '\\', c, '\''] = ['\\', c] := rfl
    show Rule.token? .char _ = _
    rw [Rule.token?, hinner, hdecode]

/-- Each lexeme is skipped, or stands for a token, or has no meaning. -/
theorem skipped_or_reads_or_meaningless (h : p.Fits text rest) :
    p.isSkipped = true ∨ (∃ t, p.Reads text t) ∨ p.Meaningless text := by
  have htext := h.language
  cases p with
  | blank | lineBreak | lineComment | blockComment => exact .inl rfl
  | integer =>
    by_cases hlt : Int64.maxValue.toInt < Digits.value text
    · exact .inr (.inr (.integer hlt))
    · have hmin : Int64.minValue.toInt ≤ 0 := by decide
      have hrange : Word.ofInt? (Digits.value text) = some (Int64.ofInt (Digits.value text)) :=
        if_pos ⟨by omega, by omega⟩
      exact .inr (.inl ⟨_, .integer (Word.toInt_of_ofInt? hrange)⟩)
  | float =>
    obtain ⟨whole, hwhole, fraction, hfraction, x, hx, rfl⟩ := mem_float.1 htext
    obtain ⟨e, he⟩ := exists_exponent hx
    have hreads := Pattern.Reads.float hwhole hfraction he
    rw [List.append_assoc, List.cons_append] at hreads
    exact .inr (.inl ⟨_, hreads⟩)
  | string =>
    obtain ⟨body, hbody, rfl⟩ := mem_between.1 htext
    rcases decodes_or_unknown hbody with ⟨ds, hds⟩ | ⟨before, hbefore, c, after, rfl, hc⟩
    · exact .inr (.inl ⟨_, .string hds⟩)
    · have hmeaningless : Pattern.Meaningless .string ('"' :: before ++ '\\' :: c :: after ++ ['"']) :=
        .string hbefore hc
      exact .inr (.inr hmeaningless)
  | char =>
    obtain ⟨unit, hunit, rfl⟩ := mem_char.1 htext
    rcases mem_literalUnits.1 hunit with ⟨c, ⟨_, hc, _⟩, rfl⟩ | ⟨c, _, rfl⟩
    · exact .inr (.inl ⟨_, .char (.plain hc .nil)⟩)
    · cases hc : Text.Quoted.unescape? c with
      | none => exact .inr (.inr (.char hc))
      | some d => exact .inr (.inl ⟨_, .char (.escape hc .nil)⟩)
  | name => exact .inr (.inl ⟨_, .name⟩)
  | word w t =>
    cases htext
    exact .inr (.inl ⟨t, .word⟩)
  | symbol s t =>
    cases htext
    exact .inr (.inl ⟨t, .symbol⟩)

end Scriptling.Token
