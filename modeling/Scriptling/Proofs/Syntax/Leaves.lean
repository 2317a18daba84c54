import Scriptling.Proofs.Number.Numerals
import Scriptling.Proofs.Syntax.Sexprs
import Scriptling.Proofs.Token.Scanning
import Scriptling.Syntax.Expr

/-!
# Scriptling.Proofs.Syntax.Leaves -- the words that literals and names are shown as

A literal and a name are shown as one word each. For those that a source can have (`Token.Lexed`), the first
character of the word and whether it is made of digits tell what was shown, and then the word tells which one
(`ShowsLeaf.unique`). The one exception is the infinite float, which a numeral can be too large not to be: its
text is that of a name.
-/

set_option autoImplicit false

namespace Scriptling

open Computability Token

/-! ## Tokens of sources -/

namespace Token

/-- The token is one that a lexeme stands for. -/
def Lexed (t : Token) : Prop :=
  ∃ (p : Pattern) (text rest : List Char), Longest p text rest ∧ p.Reads text t

theorem lexed_of_yields {cs before rest : List Char} {pieces : List Piece} {ts : List Lexeme}
    (h : Cut cs pieces rest) (hts : Yields before pieces ts) : ∀ l ∈ ts, l.token.Lexed := by
  induction h generalizing before ts with
  | nil rest =>
    cases hts
    exact List.forall_mem_nil _
  | cons h _ ih =>
    cases hts with
    | skip _ hts => exact ih hts
    | token ht hts => exact List.forall_mem_cons.2 ⟨⟨_, _, _, h, ht⟩, ih hts⟩

/-- Every token of a source is one that a lexeme stands for. -/
theorem lexed_of_ofText {source : String} {ts : List Lexeme} (h : ofText source = .ok ts) :
    ∀ l ∈ ts, l.token.Lexed := by
  obtain ⟨pieces, us, rest, hcut, hus, hend⟩ := exists_cut source.toList []
  have hscan : ofText source = _ := scan_of_cut hcut hus []
  rw [h] at hscan
  rcases hend with rfl | ⟨slice, hfails⟩
  · rw [scan, List.append_nil, List.reverse_reverse] at hscan
    cases hscan
    exact lexed_of_yields hcut hus
  · rw [scan_of_fails hfails] at hscan
    cases hscan

/-- The token holds a number or a name. -/
def holds : Token → Bool
  | integer _ | float _ | identifier _ => true
  | _ => false

/-- No word with a fixed meaning stands for a number or a name. -/
theorem not_longest_word {t : Token} {cs text rest : List Char} (ht : t.holds = true) :
    ¬ Longest (.word cs t) text rest := by
  intro h
  have hwords : ∀ e ∈ words, e.2.holds = false := by decide
  rw [hwords _ (Pattern.word_mem_all.1 h.fits.pattern)] at ht
  cases ht

theorem not_longest_symbol {t : Token} {cs text rest : List Char} (ht : t.holds = true) :
    ¬ Longest (.symbol cs t) text rest := by
  intro h
  have hsymbols : ∀ e ∈ Rule.symbols, e.2.holds = false := by decide
  rw [hsymbols _ (Pattern.symbol_mem_all.1 h.fits.pattern)] at ht
  cases ht

/-- The minus before an integer is an operator, so the integers of a source are not negative. -/
theorem Lexed.integer {w : Word} (h : (Token.integer w).Lexed) : 0 ≤ w.toInt := by
  obtain ⟨p, text, rest, hlongest, hreads⟩ := h
  cases hreads with
  | integer hw => omega
  | word => exact absurd hlongest (not_longest_word rfl)
  | symbol => exact absurd hlongest (not_longest_symbol rfl)

/-- The floats of a source have no sign. -/
theorem Lexed.float {x : Float} (h : (Token.float x).Lexed) : Binary64.Unsigned x := by
  obtain ⟨p, text, rest, hlongest, hreads⟩ := h
  cases hreads with
  | float => exact Binary64.unsigned_toFloat _
  | word => exact absurd hlongest (not_longest_word rfl)
  | symbol => exact absurd hlongest (not_longest_symbol rfl)

/-- A name is none of the words with a fixed meaning. -/
structure IsName (x : String) : Prop where
  language : x.toList ∈ Pattern.name.language
  not_word : ∀ t, (x.toList, t) ∉ words

/-- A name of a source is spelled as one and is no word with a fixed meaning. -/
theorem Lexed.identifier {x : String} (h : (Token.identifier x).Lexed) : IsName x := by
  obtain ⟨p, text, rest, hlongest, hreads⟩ := h
  cases hreads with
  | name =>
    refine ⟨?_, fun t ht => ?_⟩
    · rw [String.toList_ofList]
      exact hlongest.fits.language
    · -- A word with the same text would win over the name.
      rw [String.toList_ofList] at ht
      have hword : (Pattern.word text t).Fits text rest :=
        ⟨Pattern.word_mem_all.2 ht, rfl, hlongest.fits.slash⟩
      exact Pattern.noConfusion (hlongest.name rfl _ hword)
  | word => exact absurd hlongest (not_longest_word rfl)
  | symbol => exact absurd hlongest (not_longest_symbol rfl)

end Token

/-! ## Words of leaves -/

/-- The word shows the literal or the name, and these can stand in a source. An infinite float is not among
them. -/
inductive ShowsLeaf : String → Expr → Prop
  | int {w : Word} : 0 ≤ w.toInt → ShowsLeaf w.text (.literal (.int w) 0)
  | float {x : Float} :
    Binary64.Unsigned x → Binary64.read x ≠ .infinite false →
    ShowsLeaf (Binary64.text x) (.literal (.float x) 0)
  | bool (b : Bool) : ShowsLeaf (Literal.bool b).text (.literal (.bool b) 0)
  | string (s : String) : ShowsLeaf (Text.Quoted.string s) (.literal (.string s) 0)
  | char (c : Char) : ShowsLeaf (Text.Quoted.char c) (.literal (.char c) 0)
  | name {x : String} : IsName x → ShowsLeaf x (.name x 0)

theorem toList_text_word {w : Word} (hw : 0 ≤ w.toInt) : w.text.toList = Digits.write w.toInt.toNat := by
  unfold Word.text
  rw [if_neg (by omega), String.toList_ofList]
  congr 1
  omega

/-- But for the infinite one, a float of a source is shown as a numeral. -/
theorem exists_numeral_of_finite {x : Float} (hx : Binary64.Unsigned x)
    (hfinite : Binary64.read x ≠ .infinite false) : ∃ v, Binary64.Numeral v (Binary64.text x).toList := by
  obtain ⟨m, e, -, hread⟩ := hx.read_cases.resolve_left hfinite
  obtain ⟨v, hv, -⟩ := Binary64.exists_numeral hread
  exact ⟨v, hv⟩

theorem bool_mem_words (b : Bool) : ((Literal.bool b).text.toList, Token.bool b) ∈ words := by
  cases b
  · decide
  · decide

/-- The rule of the leaf: the one that its word belongs to. -/
def leafRule : Expr → Rule
  | .literal (.int _) _ => .integer
  | .literal (.float _) _ => .float
  | .literal (.string _) _ => .string
  | .literal (.char _) _ => .char
  | _ => .word

namespace ShowsLeaf

variable {w w' : String} {e e' : Expr}

/-- The word belongs to the rule of the leaf. -/
theorem family (h : ShowsLeaf w e) : Token.family w.toList = some (leafRule e) := by
  cases h with
  | int hw =>
    rw [toList_text_word hw]
    exact Pattern.family_eq (p := .integer) (by simp [Pattern.all]) (Digits.write_mem_someOf _)
  | float hx hfinite =>
    obtain ⟨v, hv⟩ := exists_numeral_of_finite hx hfinite
    obtain ⟨c, tail, hcs, hc, htail⟩ := hv.exists_cons
    rw [hcs, family_digit hc, htail]
    rfl
  | bool b => exact family_word _ (bool_mem_words b)
  | string s =>
    obtain ⟨tail, hs⟩ := Sexpr.toList_string s
    rw [hs]
    rfl
  | char c =>
    obtain ⟨tail, hc⟩ := Sexpr.toList_char c
    rw [hc]
    rfl
  | name hx => exact Pattern.family_eq (p := .name) (by simp [Pattern.all]) hx.language

/-- Integers that are not negative are told apart by their digits. -/
theorem int_inj {i j : Word} (hi : 0 ≤ i.toInt) (hj : 0 ≤ j.toInt) (h : i.text = j.text) : i = j := by
  have hdigits := congrArg (fun w => Digits.value w.toList) h
  rw [toList_text_word hi, toList_text_word hj, Digits.value_write, Digits.value_write] at hdigits
  exact Int64.toInt_inj.1 (by omega)

theorem bool_inj {a b : Bool} (h : (Literal.bool a).text = (Literal.bool b).text) : a = b := by
  revert h
  cases a <;> cases b <;> decide

/-- A word shows one leaf. -/
theorem unique (h : ShowsLeaf w e) (h' : ShowsLeaf w' e') (hw : w = w') : e = e' := by
  have hrule : leafRule e = leafRule e' := by
    have hfamily := h.family
    rw [hw, h'.family] at hfamily
    exact (Option.some.inj hfamily).symm
  -- Leaves of different rules are out, so each case is one of two leaves of one kind, but for names and `bool`s.
  cases h with
  | int hi =>
    cases h' with
    | int hj => rw [int_inj hi hj hw]
    | _ => simp [leafRule] at hrule
  | float hx hfinite =>
    cases h' with
    | float hy hfinite' => rw [hx.eq_of_text hy hfinite hfinite' hw]
    | _ => simp [leafRule] at hrule
  | bool a =>
    cases h' with
    | bool b => rw [bool_inj hw]
    | name hx => exact absurd (hw ▸ bool_mem_words a) (hx.not_word _)
    | _ => simp [leafRule] at hrule
  | string s =>
    cases h' with
    | string s' => rw [Text.Quoted.string_inj hw]
    | _ => simp [leafRule] at hrule
  | char c =>
    cases h' with
    | char c' => rw [Text.Quoted.char_inj hw]
    | _ => simp [leafRule] at hrule
  | name hx =>
    cases h' with
    | bool b => exact absurd (hw ▸ bool_mem_words b) (hx.not_word _)
    | name => rw [hw]
    | _ => simp [leafRule] at hrule

end ShowsLeaf

/-! ## They are legible -/

theorem plain_of_digit {c : Char} (hc : Digit c) : Sexpr.Plain c := by
  intro hmem
  have hdigit := (isDigit_iff c).2 hc
  have hnot : ∀ c ∈ [' ', '(', ')', '"', '\''], c.isDigit = false := by simp
  rw [hnot c hmem] at hdigit
  cases hdigit

theorem plain_of_namePart {c : Char} (hc : NamePart c) : Sexpr.Plain c := by
  intro hmem
  have hpart := (isWordPart_iff c).2 hc
  have hnot : ∀ c ∈ [' ', '(', ')', '"', '\''], Rule.isWordPart c = false := by simp [Rule.isWordPart]
  rw [hnot c hmem] at hpart
  cases hpart

theorem Token.IsName.legible {x : String} (h : IsName x) : Sexpr.LegibleWord x := by
  obtain ⟨c, hc, cs, hcs, hx⟩ := mem_oneOf_mul.1 h.language
  refine .plain (fun hnil => ?_) fun d hd => plain_of_namePart ?_
  · rw [hnil] at hx
    cases hx
  · rw [hx] at hd
    exact List.forall_mem_cons.2 ⟨.inl hc, mem_kstar_oneOf.1 hcs⟩ d hd

/-- The word of a leaf ends visibly. -/
theorem ShowsLeaf.legible {w : String} {e : Expr} (h : ShowsLeaf w e) : Sexpr.LegibleWord w := by
  cases h with
  | @int i hi =>
    refine .plain (fun hnil => ?_) fun c hc => plain_of_digit ?_
    · have hdigits := toList_text_word hi
      rw [hnil] at hdigits
      exact absurd hdigits.symm Nat.toDigits_ne_nil
    · rw [toList_text_word hi] at hc
      exact Digits.digit_of_mem_write hc
  | float hx hfinite =>
    obtain ⟨v, hv⟩ := exists_numeral_of_finite hx hfinite
    refine .plain (fun hnil => ?_) fun c hc => ?_
    · obtain ⟨c, tail, hcs, -⟩ := hv.exists_cons
      rw [hnil] at hcs
      cases hcs
    · rcases hv.mem c hc with hc | hc
      · exact plain_of_digit hc
      · have hplain : ∀ c ∈ ['.', 'e', 'E', '+', '-'], c ∉ [' ', '(', ')', '"', '\''] := by simp
        exact hplain c hc
  | bool b => cases b <;> exact Sexpr.legibleWord_of_all (by decide) (by decide)
  | string s => exact .string s
  | char c => exact .char c
  | name hx => exact hx.legible

end Scriptling
