import Scriptling.Proofs.Text.Quoted
import Scriptling.Proofs.Token.Scanning
import Scriptling.Syntax.Expr

/-!
# Scriptling.Proofs.Token.Literals -- text literals that are shown can be read

A literal is shown between quotes, and so it could be taken for the source of a program. Quotes and
backslashes are escaped, hence the literal is one lexeme, no matter which characters it has: it ends at its
own closing quote (`longest_string`, `longest_char`). It reads as the text it shows unless a character is
written by its code point, which no escape of the language stands for. A string is then a lexeme without a
meaning. A character is no lexeme at all, because a code point is longer than the one unit that may stand
between its quotes.

The main result is `text_literals_read_back`.
-/

set_option autoImplicit false

namespace Scriptling.Token

open Computability Rule Text.Quoted

/-! ## Written characters are units -/

section Units

variable {quote c : Char} {cs : List Char}

theorem kstar_append_kstar {l : Language Char} {a b : List Char} (ha : a ∈ l∗) (hb : b ∈ l∗) :
    a ++ b ∈ l∗ := by
  rw [← kstar_mul_kstar]
  exact Language.append_mem_mul ha hb

theorem plain_mem_kstar (h : ∀ c ∈ cs, c ≠ quote ∧ c ≠ '\\' ∧ c ≠ '\n') :
    cs ∈ (literalUnits quote)∗ := by
  induction cs with
  | nil => exact Language.nil_mem_kstar _
  | cons c cs ih =>
    rw [List.forall_mem_cons] at h
    exact append_mem_kstar (a := [c]) (mem_literalUnits.2 (.inl ⟨c, h.1, rfl⟩)) (ih h.2)

theorem unescape?_ne_lineBreak {d : Char} (h : unescape? d = some c) : d ≠ '\n' := by
  rintro rfl
  cases h

/-- A code point is the unit of the backslash and the letter, and characters that stand for themselves. -/
theorem codePoint_mem_kstar (hquote : quote ∈ ['"', '\'']) (c : Char) :
    codePoint c ∈ (literalUnits quote)∗ := by
  have hbody : '\x7b' :: Nat.toDigits 16 c.toNat ++ ['\x7d'] ∈ (literalUnits quote)∗ := by
    refine plain_mem_kstar fun d hd => ?_
    have hplain : d ∉ ['"', '\'', '\\', '\n'] := by
      rw [List.cons_append, List.mem_cons, List.mem_append, List.mem_singleton] at hd
      rcases hd with rfl | hd | rfl
      · decide
      · exact fun h => digit_plain hd (by simp at h ⊢; tauto)
      · decide
    simp only [List.mem_cons, List.not_mem_nil, or_false, not_or] at hplain hquote
    refine ⟨?_, hplain.2.2.1, hplain.2.2.2⟩
    rcases hquote with rfl | rfl
    · exact hplain.1
    · exact hplain.2.1
  exact append_mem_kstar (a := ['\\', 'u']) (mem_literalUnits.2 (.inr ⟨'u', by decide, rfl⟩)) hbody

theorem unescape?_quote (hquote : quote ∈ ['"', '\'']) : unescape? quote = some quote := by
  rcases List.mem_pair.1 hquote with rfl | rfl
  · rfl
  · rfl

/-- A character that is not written by its code point is one unit, and reads as itself. -/
theorem encodeChar_of_not_byCodePoint (hquote : quote ∈ ['"', '\'']) (hc : ¬ ByCodePoint quote c) :
    encodeChar quote c ∈ literalUnits quote ∧
      ∀ {cs ds : List Char}, Decodes cs ds → Decodes (encodeChar quote c ++ cs) (c :: ds) := by
  have hwritten := written_encodeChar (unescape?_quote hquote) c
  unfold ByCodePoint at hc
  generalize encodeChar quote c = text at hwritten hc
  cases hwritten with
  | plain hne hbackslash hbreak =>
    exact ⟨mem_literalUnits.2 (.inl ⟨c, ⟨hne, hbackslash, hbreak⟩, rfl⟩), fun h => .plain hbackslash h⟩
  | @escape d hd =>
    exact ⟨mem_literalUnits.2 (.inr ⟨d, unescape?_ne_lineBreak hd, rfl⟩), fun h => .escape hd h⟩
  | codePoint => exact absurd rfl hc

theorem encode_mem_kstar (hquote : quote ∈ ['"', '\'']) (cs : List Char) :
    encode quote cs ∈ (literalUnits quote)∗ := by
  induction cs with
  | nil => exact Language.nil_mem_kstar _
  | cons c cs ih =>
    show encodeChar quote c ++ encode quote cs ∈ _
    by_cases hc : ByCodePoint quote c
    · rw [hc]
      exact kstar_append_kstar (codePoint_mem_kstar hquote c) ih
    · exact append_mem_kstar (encodeChar_of_not_byCodePoint hquote hc).1 ih

/-- Without code points the encoded text reads as the text. -/
theorem decodes_encode (hquote : quote ∈ ['"', '\'']) (h : ∀ c ∈ cs, ¬ ByCodePoint quote c) :
    Decodes (encode quote cs) cs := by
  induction cs with
  | nil => exact .nil
  | cons c cs ih =>
    rw [List.forall_mem_cons] at h
    exact (encodeChar_of_not_byCodePoint hquote h.1).2 (ih h.2)

/-- The first code point of an encoded text is an escape that is not known. -/
theorem encode_eq_unknown (hquote : quote ∈ ['"', '\'']) (hc : c ∈ cs) (hhidden : ByCodePoint quote c) :
    ∃ before ∈ (literalUnits quote)∗, ∃ after, encode quote cs = before ++ '\\' :: 'u' :: after := by
  obtain ⟨before, after, rfl⟩ := List.append_of_mem hc
  have hencode : encode quote (before ++ c :: after) =
      encode quote before ++ '\\' :: 'u' :: ((codePoint c).drop 2 ++ encode quote after) := by
    unfold encode
    rw [List.flatMap_append, List.flatMap_cons, hhidden]
    rfl
  exact ⟨_, encode_mem_kstar hquote before, _, hencode⟩

end Units

/-! ## The literals as lexemes -/

section Lexemes

variable {p : Pattern} {text : List Char} {t : Token}

/-- A whole text that fits a pattern which is no name is a lexeme. -/
theorem longest_of_fits (h : p.Fits text []) (hname : p ≠ .name) : Longest p text [] := by
  refine ⟨h, fun q text' rest' hcs _ => ?_, fun hp => absurd hp hname⟩
  have hlength := congrArg List.length hcs
  rw [List.length_append, List.append_nil] at hlength
  omega

theorem longest_string (cs : List Char) : Longest .string ('"' :: encode '"' cs ++ ['"']) [] := by
  have hlanguage : '"' :: encode '"' cs ++ ['"'] ∈ Pattern.string.language :=
    mem_between.2 ⟨_, encode_mem_kstar (by simp) cs, rfl⟩
  exact longest_of_fits
    (Pattern.fits_of_rule_ne_symbol (by simp [Pattern.all]) Rule.noConfusion hlanguage []) Pattern.noConfusion

theorem longest_char {c : Char} (hc : ¬ ByCodePoint '\'' c) :
    Longest .char ('\'' :: encodeChar '\'' c ++ ['\'']) [] := by
  have hlanguage : '\'' :: encodeChar '\'' c ++ ['\''] ∈ Pattern.char.language :=
    mem_between.2 ⟨_, (encodeChar_of_not_byCodePoint (by simp) hc).1, rfl⟩
  exact longest_of_fits
    (Pattern.fits_of_rule_ne_symbol (by simp [Pattern.all]) Rule.noConfusion hlanguage []) Pattern.noConfusion

/-- Between the quotes of a character stands one unit, and a code point is longer than that. -/
theorem unmatched_codePoint (c : Char) : Unmatched ('\'' :: codePoint c ++ ['\'']) := by
  have hopening : (['\''], Pattern.char) ∈ [(['"'], .string), (['\''], .char), (['/', '*'], .blockComment)] := by
    simp
  show Unmatched (['\''] ++ (codePoint c ++ ['\'']))
  refine unmatched_of_unclosed hopening fun text rest hcs htext => ?_
  obtain ⟨unit, hunit, rfl⟩ := mem_char.1 htext
  rcases mem_literalUnits.1 hunit with ⟨d, _, rfl⟩ | ⟨d, _, rfl⟩
  -- The third character would be the closing quote, but it is the letter of the code point.
  · cases hcs
  -- The fourth would be, but it is the opening brace.
  · cases hcs

/-- The tokens of a text that is one lexeme. -/
theorem ofText_of_reads (h : Longest p text []) (ht : p.Reads text t) :
    ofText (String.ofList text) = .ok [⟨t, 1⟩] := by
  have hscan := scan_of_longest h 1 []
  rw [List.append_nil, if_neg (by simp [ht.not_skipped]), token?_of_reads h ht] at hscan
  rw [ofText, String.toList_ofList, hscan]
  dsimp only
  rw [scan, List.reverse_singleton]

theorem ofText_of_fails {slice : List Char} (h : Fails text slice) :
    ofText (String.ofList text) = .error ⟨.unrecognized (String.ofList slice), 1⟩ := by
  rw [ofText, String.toList_ofList, scan_of_fails h]

end Lexemes

/-! ## Reading back -/

theorem ofText_string (s : String) :
    ofText (Text.Quoted.string s) =
      if ∃ c ∈ s.toList, ByCodePoint '"' c then .error ⟨.unrecognized (Text.Quoted.string s), 1⟩
      else .ok [⟨.string s, 1⟩] := by
  have hlongest := longest_string s.toList
  split_ifs with hhidden
  · obtain ⟨c, hc, hcode⟩ := hhidden
    obtain ⟨before, hbefore, after, hencode⟩ := encode_eq_unknown (by simp) hc hcode
    have hmeaningless : Pattern.Meaningless .string ('"' :: encode '"' s.toList ++ ['"']) := by
      rw [hencode]
      exact .string hbefore rfl
    have hfails := Fails.meaningless hlongest hmeaningless
    rw [List.append_nil] at hfails
    exact ofText_of_fails hfails
  · have hdecodes : Decodes (encode '"' s.toList) s.toList :=
      decodes_encode (by simp) fun c hc hcode => hhidden ⟨c, hc, hcode⟩
    have hreads := ofText_of_reads hlongest (.string hdecodes)
    rw [String.ofList_toList] at hreads
    exact hreads

theorem ofText_char (c : Char) :
    ofText (Text.Quoted.char c) =
      if ByCodePoint '\'' c then .error ⟨.unrecognized "'", 1⟩ else .ok [⟨.char c, 1⟩] := by
  split_ifs with hcode
  · have hfails : Fails ('\'' :: encodeChar '\'' c ++ ['\'']) ['\''] := by
      rw [hcode]
      exact .unmatched (List.cons_ne_nil _ _) (unmatched_codePoint c)
    exact ofText_of_fails hfails
  · have hdecodes : Decodes (encodeChar '\'' c ++ []) [c] :=
      (encodeChar_of_not_byCodePoint (by simp) hcode).2 .nil
    rw [List.append_nil] at hdecodes
    exact ofText_of_reads (longest_char hcode) (.char hdecodes)

/-- **Text literals read back.** If the text that shows a string literal is read as a source, then the one
token is the string, on the first line, unless a character of it is written by its code point; then the
whole text is rejected as a slice. The text that shows a character literal is read as that character, unless
it is written by its code point; then the opening quote is rejected. -/
theorem text_literals_read_back :
    (∀ (s : String) (line : Nat), ofText (Expr.literal (.string s) line).text =
      if ∃ c ∈ s.toList, ByCodePoint '"' c then
        .error ⟨.unrecognized (Expr.literal (.string s) line).text, 1⟩
      else .ok [⟨.string s, 1⟩]) ∧
    ∀ (c : Char) (line : Nat), ofText (Expr.literal (.char c) line).text =
      if ByCodePoint '\'' c then .error ⟨.unrecognized "'", 1⟩ else .ok [⟨.char c, 1⟩] :=
  ⟨fun s _ => ofText_string s, fun c _ => ofText_char c⟩

end Scriptling.Token
