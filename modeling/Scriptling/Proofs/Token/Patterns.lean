import Scriptling.Token.Rule
import Mathlib

/-!
# Scriptling.Proofs.Token.Patterns -- what a lexeme is

The lexemes of the language are given by patterns, each a language of characters. Several patterns can fit
the start of a text, and one pattern can fit it in several ways. The lexeme is then the longest text that
fits, and a word of fixed meaning is not a name (`Longest`). This module says what a text is cut into
(`Cut`), what each lexeme reads as (`Pattern.Reads`), and which have no reading (`Pattern.Meaningless`). It
measures nothing: how far a pattern reaches into a text is not computed here.
-/

set_option autoImplicit false

namespace Scriptling.Token

open Computability

/-! ## Characters -/

/-- The characters that separate, without the line break. -/
def Blank (c : Char) : Prop := c ∈ [' ', '\t', '\r', '\x0c']

/-- The ten digits. -/
def Digit (c : Char) : Prop := '0' ≤ c ∧ c ≤ '9'

/-- The characters a name starts with. -/
def NameStart (c : Char) : Prop := 'a' ≤ c ∧ c ≤ 'z' ∨ 'A' ≤ c ∧ c ≤ 'Z' ∨ c = '_'

/-- The characters a name goes on with. -/
def NamePart (c : Char) : Prop := NameStart c ∨ Digit c

theorem isBlank_iff (c : Char) : Rule.isBlank c = true ↔ Blank c := by
  simp [Rule.isBlank, Blank, or_assoc]

theorem isDigit_iff (c : Char) : c.isDigit = true ↔ Digit c := by
  simp [Char.isDigit, Digit, Char.le_def]

/-- No digit is taken for the sign of an exponent. -/
theorem Digit.ne_sign {c : Char} (hc : Digit c) : c ≠ '+' ∧ c ≠ '-' := by
  constructor
  · rintro rfl
    exact absurd ((isDigit_iff _).2 hc) (by decide)
  · rintro rfl
    exact absurd ((isDigit_iff _).2 hc) (by decide)

theorem isWordStart_iff (c : Char) : Rule.isWordStart c = true ↔ NameStart c := by
  simp [Rule.isWordStart, NameStart, Char.isAlpha, Char.isUpper, Char.isLower, Char.le_def]
  tauto

theorem isWordPart_iff (c : Char) : Rule.isWordPart c = true ↔ NamePart c := by
  rw [NamePart, ← isWordStart_iff, ← isDigit_iff]
  simp [Rule.isWordPart, Rule.isWordStart, Char.isAlphanum]
  tauto

/-! ## Languages of characters -/

/-- A text as the one text of a language. -/
def just (text : List Char) : Language Char := {text}

/-- One character of a class. -/
def oneOf (p : Char → Prop) : Language Char := {cs | ∃ c, p c ∧ cs = [c]}

/-- At least one character, all of them of a class. -/
def someOf (p : Char → Prop) : Language Char := oneOf p * (oneOf p)∗

/-- A text of the language, or none. -/
def optional (l : Language Char) : Language Char := 1 + l

/-- A letter `e`, perhaps a sign, and digits. -/
def exponents : Language Char :=
  oneOf (· ∈ ['e', 'E']) * optional (oneOf (· ∈ ['+', '-'])) * someOf Digit

/-- What the body of a block comment is made of: characters other than a star, and pairs of a star and a
character other than a slash. -/
def commentUnits : Language Char := oneOf (· ≠ '*') + just ['*'] * oneOf (· ≠ '/')

/-- What stands between quotes: characters that are written as they are, and pairs of a backslash and a
character. -/
def literalUnits (quote : Char) : Language Char :=
  oneOf (fun c => c ≠ quote ∧ c ≠ '\\' ∧ c ≠ '\n') + just ['\\'] * oneOf (· ≠ '\n')

/-! ### Members -/

section Members

variable {p : Char → Prop} {l : Language Char} {cs : List Char}

theorem mem_just_mul {text : List Char} : cs ∈ just text * l ↔ ∃ b ∈ l, cs = text ++ b := by
  rw [Language.mem_mul]
  constructor
  · rintro ⟨a, rfl, b, hb, rfl⟩
    exact ⟨b, hb, rfl⟩
  · rintro ⟨b, hb, rfl⟩
    exact ⟨text, rfl, b, hb, rfl⟩

theorem mem_mul_just {text : List Char} : cs ∈ l * just text ↔ ∃ a ∈ l, cs = a ++ text := by
  rw [Language.mem_mul]
  constructor
  · rintro ⟨a, ha, b, rfl, rfl⟩
    exact ⟨a, ha, rfl⟩
  · rintro ⟨a, ha, rfl⟩
    exact ⟨a, ha, text, rfl, rfl⟩

/-- Between two fixed texts. -/
theorem mem_between {opening closing : List Char} :
    cs ∈ just opening * l * just closing ↔ ∃ body ∈ l, cs = opening ++ body ++ closing := by
  rw [mem_mul_just]
  constructor
  · rintro ⟨_, hfront, rfl⟩
    obtain ⟨body, hbody, rfl⟩ := mem_just_mul.1 hfront
    exact ⟨body, hbody, rfl⟩
  · rintro ⟨body, hbody, rfl⟩
    exact ⟨_, mem_just_mul.2 ⟨body, hbody, rfl⟩, rfl⟩

theorem mem_oneOf_mul : cs ∈ oneOf p * l ↔ ∃ c, p c ∧ ∃ b ∈ l, cs = c :: b := by
  rw [Language.mem_mul]
  constructor
  · rintro ⟨_, ⟨c, hc, rfl⟩, b, hb, rfl⟩
    exact ⟨c, hc, b, hb, rfl⟩
  · rintro ⟨c, hc, b, hb, rfl⟩
    exact ⟨[c], ⟨c, hc, rfl⟩, b, hb, rfl⟩

theorem mem_optional : cs ∈ optional l ↔ cs = [] ∨ cs ∈ l := Iff.rfl

/-- One more repetition in front. -/
theorem append_mem_kstar {a b : List Char} (ha : a ∈ l) (hb : b ∈ l∗) : a ++ b ∈ l∗ := by
  obtain ⟨texts, rfl, htexts⟩ := Language.mem_kstar.1 hb
  exact Language.mem_kstar.2 ⟨a :: texts, rfl, List.forall_mem_cons.2 ⟨ha, htexts⟩⟩

/-- What holds of the empty text and is kept by putting a text of the language in front holds of all
repetitions. -/
theorem kstar_induction {P : List Char → Prop} (nil : P [])
    (append : ∀ a ∈ l, ∀ b ∈ l∗, P b → P (a ++ b)) (hcs : cs ∈ l∗) : P cs := by
  obtain ⟨texts, rfl, htexts⟩ := Language.mem_kstar.1 hcs
  induction texts with
  | nil => exact nil
  | cons a texts ih =>
    rw [List.forall_mem_cons] at htexts
    have hrest : texts.flatten ∈ l∗ := Language.mem_kstar.2 ⟨texts, rfl, htexts.2⟩
    exact append a htexts.1 _ hrest (ih htexts.2 hrest)

/-- Repetitions of a character of a class are the texts of such characters. -/
theorem mem_kstar_oneOf : cs ∈ (oneOf p)∗ ↔ ∀ c ∈ cs, p c := by
  constructor
  · refine kstar_induction (P := fun cs => ∀ c ∈ cs, p c) (List.forall_mem_nil _) ?_
    rintro _ ⟨c, hc, rfl⟩ b _ ih
    exact List.forall_mem_cons.2 ⟨hc, ih⟩
  · intro h
    induction cs with
    | nil => exact Language.nil_mem_kstar _
    | cons c cs ih =>
      rw [List.forall_mem_cons] at h
      exact append_mem_kstar (a := [c]) ⟨c, h.1, rfl⟩ (ih h.2)

/-- At least one repetition is a text that is not empty. -/
theorem mem_someOf : cs ∈ someOf p ↔ cs ≠ [] ∧ ∀ c ∈ cs, p c := by
  unfold someOf
  rw [mem_oneOf_mul]
  constructor
  · rintro ⟨c, hc, b, hb, rfl⟩
    exact ⟨by simp, List.forall_mem_cons.2 ⟨hc, mem_kstar_oneOf.1 hb⟩⟩
  · rintro ⟨hne, h⟩
    obtain ⟨c, b, rfl⟩ := List.exists_cons_of_ne_nil hne
    rw [List.forall_mem_cons] at h
    exact ⟨c, h.1, b, mem_kstar_oneOf.2 h.2, rfl⟩

/-- A unit of a comment is no star, or a star and what is no slash. -/
theorem mem_commentUnits :
    cs ∈ commentUnits ↔ (∃ c, c ≠ '*' ∧ cs = [c]) ∨ ∃ c, c ≠ '/' ∧ cs = ['*', c] := by
  unfold commentUnits
  rw [Language.mem_add, mem_just_mul]
  refine or_congr Iff.rfl ⟨?_, ?_⟩
  · rintro ⟨_, ⟨c, hc, rfl⟩, rfl⟩
    exact ⟨c, hc, rfl⟩
  · rintro ⟨c, hc, rfl⟩
    exact ⟨[c], ⟨c, hc, rfl⟩, rfl⟩

theorem mem_literalUnits {quote : Char} :
    cs ∈ literalUnits quote ↔ (∃ c, (c ≠ quote ∧ c ≠ '\\' ∧ c ≠ '\n') ∧ cs = [c]) ∨
      ∃ c, c ≠ '\n' ∧ cs = ['\\', c] := by
  unfold literalUnits
  rw [Language.mem_add, mem_just_mul]
  refine or_congr Iff.rfl ⟨?_, ?_⟩
  · rintro ⟨_, ⟨c, hc, rfl⟩, rfl⟩
    exact ⟨c, hc, rfl⟩
  · rintro ⟨c, hc, rfl⟩
    exact ⟨[c], ⟨c, hc, rfl⟩, rfl⟩

end Members

/-! ## Patterns -/

/-- The patterns of lexemes. The first four carry no token. A word or a symbol has one text, and one token
that it stands for. -/
inductive Pattern where
  | blank
  | lineBreak
  | lineComment
  | blockComment
  | integer
  | float
  | string
  | char
  | name
  | word (text : List Char) (token : Token)
  | symbol (text : List Char) (token : Token)

/-- The words that are no names, with their tokens. -/
def words : List (List Char × Token) :=
  Rule.reserved.map (fun e => (e.1.toList, e.2)) ++
    Keyword.all.map fun k => (k.text.toList, .keyword k)

namespace Pattern

/-- All patterns. -/
def all : List Pattern :=
  [blank, lineBreak, lineComment, blockComment, integer, float, string, char, name] ++
    words.map (fun e => word e.1 e.2) ++ Rule.symbols.map fun e => symbol e.1 e.2

/-- Whether lexemes of the pattern are left out of the token sequence. -/
def isSkipped : Pattern → Bool
  | blank | lineBreak | lineComment | blockComment => true
  | _ => false

/-- The texts that fit a pattern. -/
def language : Pattern → Language Char
  | blank => someOf Blank
  | lineBreak => just ['\n']
  | lineComment => just ['/', '/'] * (oneOf fun c => c ≠ '\n' ∧ c ≠ '\r')∗
  | blockComment => just ['/', '*'] * commentUnits∗ * just ['*', '/']
  | integer => someOf Digit
  | float => someOf Digit * just ['.'] * someOf Digit * optional exponents
  | string => just ['"'] * (literalUnits '"')∗ * just ['"']
  | char => just ['\''] * literalUnits '\'' * just ['\'']
  | name => oneOf NameStart * (oneOf NamePart)∗
  | word text _ => just text
  | symbol text _ => just text

/-- The text fits the pattern where it stands, before the rest. A slash before a star is no symbol, not
even where the comment that it opens is never closed. -/
structure Fits (p : Pattern) (text rest : List Char) : Prop where
  pattern : p ∈ all
  language : text ∈ p.language
  slash : text = ['/'] → rest.head? ≠ some '*'

end Pattern

/-! ## Lexemes -/

/-- The lexeme that stands before the rest: no other way to fit a pattern reaches further, and a text that
fits a word of fixed meaning is not a name. -/
structure Longest (p : Pattern) (text rest : List Char) : Prop where
  fits : p.Fits text rest
  longest : ∀ (q : Pattern) (text' rest' : List Char), text' ++ rest' = text ++ rest →
    q.Fits text' rest' → text'.length ≤ text.length
  name : p = .name → ∀ q : Pattern, q.Fits text rest → q = .name

/-- No pattern fits the start of the text. -/
def Unmatched (cs : List Char) : Prop :=
  ∀ (p : Pattern) (text rest : List Char), text ++ rest = cs → ¬ p.Fits text rest

/-- A text and the pattern it fits. -/
structure Piece where
  pattern : Pattern
  text : List Char

/-- The text that pieces are cut from. -/
def joined (pieces : List Piece) : List Char := pieces.flatMap Piece.text

/-- The text is cut from left to right into lexemes, up to the rest. -/
inductive Cut : List Char → List Piece → List Char → Prop
  | nil (rest : List Char) : Cut rest [] rest
  | cons {p : Pattern} {text cs rest : List Char} {pieces : List Piece} :
    Longest p text cs → Cut cs pieces rest → Cut (text ++ cs) (⟨p, text⟩ :: pieces) rest

/-! ## Readings -/

/-- What the part of a float from the exponent on means. -/
inductive Exponent : List Char → Int → Prop
  | none : Exponent [] 0
  | unsigned {e : Char} {ds : List Char} :
    e ∈ ['e', 'E'] → ds ∈ someOf Digit → Exponent (e :: ds) (Digits.value ds)
  | positive {e : Char} {ds : List Char} :
    e ∈ ['e', 'E'] → ds ∈ someOf Digit → Exponent (e :: '+' :: ds) (Digits.value ds)
  | negative {e : Char} {ds : List Char} :
    e ∈ ['e', 'E'] → ds ∈ someOf Digit → Exponent (e :: '-' :: ds) (-(Digits.value ds : Int))

/-- What stands between quotes, and the text that is meant. -/
inductive Decodes : List Char → List Char → Prop
  | nil : Decodes [] []
  | plain {c : Char} {cs ds : List Char} : c ≠ '\\' → Decodes cs ds → Decodes (c :: cs) (c :: ds)
  | escape {c d : Char} {cs ds : List Char} :
    Text.Quoted.unescape? c = some d → Decodes cs ds → Decodes ('\\' :: c :: cs) (d :: ds)

/-- The token that a lexeme stands for. -/
inductive Pattern.Reads : Pattern → List Char → Token → Prop
  | integer {cs : List Char} {w : Word} : w.toInt = Digits.value cs → Reads .integer cs (.integer w)
  | float {whole fraction cs : List Char} {e : Int} :
    whole ∈ someOf Digit → fraction ∈ someOf Digit → Exponent cs e →
    Reads .float (whole ++ '.' :: fraction ++ cs)
      (.float (Decimal.toFloat false ⟨Digits.value (whole ++ fraction), e - fraction.length⟩))
  | string {cs ds : List Char} :
    Decodes cs ds → Reads .string ('"' :: cs ++ ['"']) (.string (String.ofList ds))
  | char {cs : List Char} {d : Char} : Decodes cs [d] → Reads .char ('\'' :: cs ++ ['\'']) (.char d)
  | name {cs : List Char} : Reads .name cs (.identifier (String.ofList cs))
  | word {cs : List Char} {t : Token} : Reads (.word cs t) cs t
  | symbol {cs : List Char} {t : Token} : Reads (.symbol cs t) cs t

/-- The lexeme stands for no token: an integer beyond the range, or an escape that is not known. -/
inductive Pattern.Meaningless : Pattern → List Char → Prop
  | integer {cs : List Char} :
    Int64.maxValue.toInt < Digits.value cs → Meaningless .integer cs
  | string {before after : List Char} {c : Char} :
    before ∈ (literalUnits '"')∗ → Text.Quoted.unescape? c = none →
    Meaningless .string ('"' :: before ++ '\\' :: c :: after ++ ['"'])
  | char {c : Char} : Text.Quoted.unescape? c = none → Meaningless .char ['\'', '\\', c, '\'']

/-- The tokens of the pieces that follow the text `before`. The line of a token is one more than the number
of line breaks before it. -/
inductive Yields : List Char → List Piece → List Lexeme → Prop
  | nil (before : List Char) : Yields before [] []
  | skip {before : List Char} {x : Piece} {pieces : List Piece} {ts : List Lexeme} :
    x.pattern.isSkipped = true → Yields (before ++ x.text) pieces ts → Yields before (x :: pieces) ts
  | token {before : List Char} {x : Piece} {pieces : List Piece} {t : Token} {ts : List Lexeme} :
    x.pattern.Reads x.text t → Yields (before ++ x.text) pieces ts →
    Yields before (x :: pieces) (⟨t, 1 + before.count '\n'⟩ :: ts)

/-- The text does not begin with a lexeme that has a meaning; the slice of it is to blame. -/
inductive Fails : List Char → List Char → Prop
  | unmatched {cs : List Char} : cs ≠ [] → Unmatched cs → Fails cs (cs.take (Rule.blame cs))
  | meaningless {p : Pattern} {text rest : List Char} :
    Longest p text rest → p.Meaningless text → Fails (text ++ rest) text

end Scriptling.Token
