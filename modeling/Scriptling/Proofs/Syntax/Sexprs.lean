import Scriptling.Proofs.Text.Quoted
import Scriptling.Syntax.Sexpr

/-!
# Scriptling.Proofs.Syntax.Sexprs -- S-expressions are determined by their texts

A word ends at the space or the bracket after it, if none of these occurs in the word itself. In a literal they
may, but a literal ends at its quote. So a text can be cut into words and brackets in one way only, provided that
the words are of these kinds (`LegibleWord`), and it determines the S-expressions (`eq_of_spaced`).
-/

set_option autoImplicit false

namespace Scriptling.Sexpr

/-! ## Words -/

/-- The character may occur in words that are not between quotes. -/
def Plain (c : Char) : Prop := c ∉ [' ', '(', ')', '"', '\'']

instance (c : Char) : Decidable (Plain c) := inferInstanceAs (Decidable (c ∉ [' ', '(', ')', '"', '\'']))

/-- Words whose end can be seen. -/
inductive LegibleWord : String → Prop
  | plain {w : String} : w ≠ "" → (∀ c ∈ w.toList, Plain c) → LegibleWord w
  | string (s : String) : LegibleWord (Text.Quoted.string s)
  | char (c : Char) : LegibleWord (Text.Quoted.char c)

theorem legibleWord_of_all {w : String} (hne : w ≠ "") (h : w.toList.all fun c => decide (Plain c)) :
    LegibleWord w :=
  .plain hne fun c hc => of_decide_eq_true (List.all_eq_true.1 h c hc)

/-- What may come after a word: the next one, a closing bracket, or nothing. -/
def EndsWord (r : List Char) : Prop := ∀ c ∈ r.head?, c = ' ' ∨ c = ')'

/-- What may come after the last word of a list: a closing bracket, or nothing. -/
def EndsList (r : List Char) : Prop := ∀ c ∈ r.head?, c = ')'

theorem EndsList.endsWord {r : List Char} (h : EndsList r) : EndsWord r := fun c hc => .inr (h c hc)

theorem EndsWord.not_plain {c : Char} {r : List Char} (h : EndsWord (c :: r)) : ¬ Plain c := by
  rcases h c rfl with rfl | rfl
  · simp [Plain]
  · simp [Plain]

theorem plain_append_inj {a a' r r' : List Char} (ha : ∀ c ∈ a, Plain c) (ha' : ∀ c ∈ a', Plain c)
    (hr : EndsWord r) (hr' : EndsWord r') (h : a ++ r = a' ++ r') : a = a' ∧ r = r' := by
  induction a generalizing a' with
  | nil =>
    cases a' with
    | nil => exact ⟨rfl, h⟩
    | cons c a' =>
      rw [List.nil_append] at h
      rw [h] at hr
      exact absurd (ha' c List.mem_cons_self) hr.not_plain
  | cons c a ih =>
    rw [List.forall_mem_cons] at ha
    cases a' with
    | nil =>
      rw [List.nil_append] at h
      rw [← h] at hr'
      exact absurd ha.1 hr'.not_plain
    | cons c' a' =>
      rw [List.forall_mem_cons] at ha'
      obtain ⟨rfl, hrest⟩ := List.cons.inj h
      obtain ⟨rfl, hr⟩ := ih ha.2 ha'.2 hrest
      exact ⟨rfl, hr⟩

theorem exists_cons_of_plain {w : String} (hne : w ≠ "") (hplain : ∀ c ∈ w.toList, Plain c) :
    ∃ c tail, w.toList = c :: tail ∧ Plain c := by
  obtain ⟨c, tail, hw⟩ := List.exists_cons_of_ne_nil fun hnil => hne (String.toList_eq_nil_iff.1 hnil)
  exact ⟨c, tail, hw, hplain c (hw ▸ List.mem_cons_self)⟩

theorem toList_string (s : String) : ∃ tail, (Text.Quoted.string s).toList = '"' :: tail :=
  ⟨_, String.toList_ofList⟩

theorem toList_char (c : Char) : ∃ tail, (Text.Quoted.char c).toList = '\'' :: tail :=
  ⟨_, String.toList_ofList⟩

/-- A word has a first character, and it is no bracket. -/
theorem LegibleWord.exists_cons {w : String} (h : LegibleWord w) :
    ∃ c tail, w.toList = c :: tail ∧ c ≠ '(' ∧ c ≠ ')' := by
  cases h with
  | plain hne hplain =>
    obtain ⟨c, tail, hw, hc⟩ := exists_cons_of_plain hne hplain
    simp only [Plain, List.mem_cons, not_or] at hc
    exact ⟨c, tail, hw, hc.2.1, hc.2.2.1⟩
  | string s =>
    obtain ⟨tail, hs⟩ := toList_string s
    exact ⟨'"', tail, hs, by decide⟩
  | char c =>
    obtain ⟨tail, hc⟩ := toList_char c
    exact ⟨'\'', tail, hc, by decide⟩

/-- A word that is no literal does not begin as one. -/
theorem plain_append_ne {w : String} (hne : w ≠ "") (hplain : ∀ c ∈ w.toList, Plain c) {q : Char}
    (hq : ¬ Plain q) (r tail : List Char) : w.toList ++ r ≠ q :: tail := by
  obtain ⟨c, rest, hw, hc⟩ := exists_cons_of_plain hne hplain
  rw [hw]
  intro h
  exact hq ((List.cons.inj h).1 ▸ hc)

/-- A word ends where it can be seen to end. -/
theorem LegibleWord.append_inj {w w' : String} {r r' : List Char} (hw : LegibleWord w) (hw' : LegibleWord w')
    (hr : EndsWord r) (hr' : EndsWord r') (h : w.toList ++ r = w'.toList ++ r') : w = w' ∧ r = r' := by
  -- The first character tells whether the words are plain, strings or characters.
  cases hw with
  | plain hne hplain =>
    cases hw' with
    | plain hne' hplain' =>
      obtain ⟨hchars, hr⟩ := plain_append_inj hplain hplain' hr hr' h
      exact ⟨String.toList_inj.1 hchars, hr⟩
    | string s =>
      obtain ⟨tail, hs⟩ := toList_string s
      rw [hs] at h
      exact absurd h (plain_append_ne hne hplain (by simp [Plain]) _ _)
    | char c =>
      obtain ⟨tail, hc⟩ := toList_char c
      rw [hc] at h
      exact absurd h (plain_append_ne hne hplain (by simp [Plain]) _ _)
  | string s =>
    obtain ⟨tail, hs⟩ := toList_string s
    cases hw' with
    | plain hne hplain =>
      rw [hs] at h
      exact absurd h.symm (plain_append_ne hne hplain (by simp [Plain]) _ _)
    | string s' =>
      obtain ⟨rfl, hr⟩ := Text.Quoted.string_append_inj h
      exact ⟨rfl, hr⟩
    | char c =>
      obtain ⟨tail', hc⟩ := toList_char c
      rw [hs, hc] at h
      exact absurd (List.cons.inj h).1 (by decide)
  | char c =>
    obtain ⟨tail, hc⟩ := toList_char c
    cases hw' with
    | plain hne hplain =>
      rw [hc] at h
      exact absurd h.symm (plain_append_ne hne hplain (by simp [Plain]) _ _)
    | string s =>
      obtain ⟨tail', hs⟩ := toList_string s
      rw [hs, hc] at h
      exact absurd (List.cons.inj h).1 (by decide)
    | char c' =>
      obtain ⟨rfl, hr⟩ := Text.Quoted.char_append_inj h
      exact ⟨rfl, hr⟩

/-! ## S-expressions -/

mutual

/-- All words of the S-expression are legible. -/
def Legible : Sexpr → Prop
  | atom w => LegibleWord w
  | list items => LegibleAll items

/-- All words of the S-expressions are legible. -/
def LegibleAll : List Sexpr → Prop
  | [] => True
  | s :: ss => s.Legible ∧ LegibleAll ss

end

theorem legibleAll_iff {ss : List Sexpr} : LegibleAll ss ↔ ∀ s ∈ ss, s.Legible := by
  induction ss with
  | nil => simp [LegibleAll]
  | cons s ss ih => rw [LegibleAll, ih, List.forall_mem_cons]

/-- The characters of S-expressions each of which follows a space. -/
def spacedRest (ss : List Sexpr) : List Char := ss.flatMap fun s => ' ' :: s.text.toList

theorem toList_text_list (ss : List Sexpr) :
    (list ss).text.toList = '(' :: (spaced ss).toList ++ [')'] := by
  rw [text, String.toList_append, String.toList_append]
  rfl

theorem toList_spaced_cons (s : Sexpr) (ss : List Sexpr) :
    (spaced (s :: ss)).toList = s.text.toList ++ spacedRest ss := by
  induction ss generalizing s with
  | nil => rw [spaced, spacedRest, List.flatMap_nil, List.append_nil]
  | cons t ss ih =>
    rw [spaced, String.toList_append, String.toList_append, ih, List.append_assoc]
    rfl

theorem spacedRest_cons_append (s : Sexpr) (ss : List Sexpr) (r : List Char) :
    spacedRest (s :: ss) ++ r = ' ' :: (s.text.toList ++ (spacedRest ss ++ r)) := by
  rw [spacedRest, List.flatMap_cons, List.cons_append, List.cons_append, List.append_assoc]
  rfl

theorem endsWord_spacedRest (ss : List Sexpr) {r : List Char} (hr : EndsList r) :
    EndsWord (spacedRest ss ++ r) := by
  cases ss with
  | nil => exact hr.endsWord
  | cons s ss =>
    rw [spacedRest_cons_append]
    intro c hc
    cases hc
    exact .inl rfl

theorem endsList_closeParen (r : List Char) : EndsList (')' :: r) := by
  intro c hc
  cases hc
  rfl

/-- An S-expression does not begin where a list ends. -/
theorem Legible.ne_of_endsList {s : Sexpr} (h : s.Legible) {r : List Char} (hr : EndsList r)
    (tail : List Char) : r ≠ s.text.toList ++ tail := by
  have hfirst : ∃ c rest, s.text.toList = c :: rest ∧ c ≠ ')' := by
    cases s with
    | atom w =>
      rw [Legible] at h
      obtain ⟨c, rest, hw, -, hc⟩ := h.exists_cons
      exact ⟨c, rest, hw, hc⟩
    | list ss => exact ⟨'(', _, toList_text_list ss, by decide⟩
  obtain ⟨c, rest, hs, hc⟩ := hfirst
  rw [hs]
  rintro rfl
  exact hc (hr c rfl)

theorem spacedRest_ne_of_endsList (s : Sexpr) (ss : List Sexpr) {r : List Char} (hr : EndsList r)
    (tail : List Char) : r ≠ spacedRest (s :: ss) ++ tail := by
  rw [spacedRest_cons_append]
  rintro rfl
  exact absurd (hr ' ' rfl) (by decide)

theorem LegibleWord.ne_list {w : String} (h : LegibleWord w) (r tail : List Char) :
    w.toList ++ r ≠ '(' :: tail := by
  obtain ⟨c, rest, hw, hc, -⟩ := h.exists_cons
  rw [hw]
  intro heq
  exact hc (List.cons.inj heq).1

mutual

/-- A text determines the S-expression in front of it. -/
theorem text_append_inj : ∀ (s s' : Sexpr) {r r' : List Char}, s.Legible → s'.Legible →
    EndsWord r → EndsWord r' → s.text.toList ++ r = s'.text.toList ++ r' → s = s' ∧ r = r'
  | atom w, atom w', r, r', hs, hs', hr, hr', h => by
    rw [Legible] at hs hs'
    rw [text, text] at h
    obtain ⟨rfl, hr⟩ := hs.append_inj hs' hr hr' h
    exact ⟨rfl, hr⟩
  | atom w, list ss', r, r', hs, hs', hr, hr', h => by
    rw [Legible] at hs
    rw [toList_text_list, text] at h
    exact absurd h (hs.ne_list _ _)
  | list ss, atom w', r, r', hs, hs', hr, hr', h => by
    rw [Legible] at hs'
    rw [toList_text_list, text] at h
    exact absurd h.symm (hs'.ne_list _ _)
  | list ss, list ss', r, r', hs, hs', hr, hr', h => by
    rw [Legible] at hs hs'
    rw [toList_text_list, toList_text_list, List.append_assoc, List.append_assoc] at h
    obtain ⟨rfl, hr⟩ := spaced_append_inj ss ss' hs hs' (endsList_closeParen r) (endsList_closeParen r')
      (List.cons.inj h).2
    exact ⟨rfl, (List.cons.inj hr).2⟩

theorem spaced_append_inj : ∀ (ss ss' : List Sexpr) {r r' : List Char}, LegibleAll ss → LegibleAll ss' →
    EndsList r → EndsList r' → (spaced ss).toList ++ r = (spaced ss').toList ++ r' → ss = ss' ∧ r = r'
  | [], [], r, r', _, _, hr, hr', h => ⟨rfl, h⟩
  | [], s' :: ss', r, r', _, hss', hr, hr', h => by
    rw [toList_spaced_cons, List.append_assoc] at h
    exact absurd h (hss'.1.ne_of_endsList hr _)
  | s :: ss, [], r, r', hss, _, hr, hr', h => by
    rw [toList_spaced_cons, List.append_assoc] at h
    exact absurd h.symm (hss.1.ne_of_endsList hr' _)
  | s :: ss, s' :: ss', r, r', hss, hss', hr, hr', h => by
    rw [toList_spaced_cons, toList_spaced_cons, List.append_assoc, List.append_assoc] at h
    obtain ⟨rfl, hrest⟩ := text_append_inj s s' hss.1 hss'.1 (endsWord_spacedRest ss hr)
      (endsWord_spacedRest ss' hr') h
    obtain ⟨rfl, hr⟩ := spacedRest_append_inj ss ss' hss.2 hss'.2 hr hr' hrest
    exact ⟨rfl, hr⟩

theorem spacedRest_append_inj : ∀ (ss ss' : List Sexpr) {r r' : List Char}, LegibleAll ss → LegibleAll ss' →
    EndsList r → EndsList r' → spacedRest ss ++ r = spacedRest ss' ++ r' → ss = ss' ∧ r = r'
  | [], [], r, r', _, _, hr, hr', h => ⟨rfl, h⟩
  | [], s' :: ss', r, r', _, _, hr, hr', h => absurd h (spacedRest_ne_of_endsList s' ss' hr _)
  | s :: ss, [], r, r', _, _, hr, hr', h => absurd h.symm (spacedRest_ne_of_endsList s ss hr' _)
  | s :: ss, s' :: ss', r, r', hss, hss', hr, hr', h => by
    rw [spacedRest_cons_append, spacedRest_cons_append] at h
    obtain ⟨rfl, hrest⟩ := text_append_inj s s' hss.1 hss'.1 (endsWord_spacedRest ss hr)
      (endsWord_spacedRest ss' hr') (List.cons.inj h).2
    obtain ⟨rfl, hr⟩ := spacedRest_append_inj ss ss' hss.2 hss'.2 hr hr' hrest
    exact ⟨rfl, hr⟩

end

/-- S-expressions with the same text are the same. -/
theorem eq_of_spaced {ss ss' : List Sexpr} (hss : LegibleAll ss) (hss' : LegibleAll ss')
    (h : spaced ss = spaced ss') : ss = ss' := by
  have hnil : EndsList [] := fun c hc => by cases hc
  exact (spaced_append_inj ss ss' hss hss' hnil hnil (by rw [h])).1

end Scriptling.Sexpr
