import Scriptling.Text.Quoted
import Mathlib

/-!
# Scriptling.Proofs.Text.Quoted -- how characters are written between quotes

A character between quotes is written as it is, by a backslash and a letter that is read back as the
character, or by its code point (`Written`). Which of the three it is shows in the first two characters, and
a code point ends at the first closing brace; so what was written determines the character, with any text
after it (`Written.inj`). No character is written with the closing quote in front, so literals determine what
they show, too (`string_append_inj`, `char_append_inj`).
-/

set_option autoImplicit false

namespace Scriptling.Text.Quoted

/-- The character is written by its code point. -/
def ByCodePoint (quote c : Char) : Prop := encodeChar quote c = codePoint c

instance (quote c : Char) : Decidable (ByCodePoint quote c) :=
  inferInstanceAs (Decidable (encodeChar quote c = codePoint c))

/-- Delete is not seen. A line break is not either, but has an escape. -/
example : ByCodePoint '"' '\x7f' ∧ ¬ ByCodePoint '"' '\n' := by decide

/-! ## Code points -/

theorem exists_digitChar {n : Nat} {c : Char} (hc : c ∈ Nat.toDigits 16 n) :
    ∃ k < 16, c = Nat.digitChar k := by
  induction n using Nat.strong_induction_on with
  | _ n ih =>
    by_cases hn : n < 16
    · rw [Nat.toDigits_of_lt_base hn, List.mem_singleton] at hc
      exact ⟨n, hn, hc⟩
    · rw [Nat.toDigits_of_base_le (by omega) (by omega), List.mem_append, List.mem_singleton] at hc
      rcases hc with hc | rfl
      · exact ih (n / 16) (by omega) hc
      · exact ⟨n % 16, by omega, rfl⟩

/-- Digits are none of the characters that mean something between quotes. -/
theorem digit_plain {n : Nat} {c : Char} (hc : c ∈ Nat.toDigits 16 n) :
    c ∉ ['"', '\'', '\\', '\n', '\x7d'] := by
  obtain ⟨k, hk, rfl⟩ := exists_digitChar hc
  have hdigits : ∀ k < 16, Nat.digitChar k ∉ ['"', '\'', '\\', '\n', '\x7d'] := by decide
  exact hdigits k hk

theorem digitChar_inj : ∀ k < 16, ∀ l < 16, Nat.digitChar k = Nat.digitChar l → k = l := by decide

/-- Different numbers have different digits. -/
theorem toDigits_injective {n m : Nat} (h : Nat.toDigits 16 n = Nat.toDigits 16 m) : n = m := by
  have hlast {k : Nat} (hk : k < 16) : Nat.toDigits 16 k = [] ++ [Nat.digitChar k] :=
    Nat.toDigits_of_lt_base hk
  have hstep {k : Nat} (hk : ¬ k < 16) :
      Nat.toDigits 16 k = Nat.toDigits 16 (k / 16) ++ [Nat.digitChar (k % 16)] :=
    Nat.toDigits_of_base_le (by decide) (by omega)
  induction n using Nat.strong_induction_on generalizing m with
  | _ n ih =>
    by_cases hn : n < 16
    · by_cases hm : m < 16
      · rw [hlast hn, hlast hm, List.append_singleton_inj] at h
        exact digitChar_inj n hn m hm h.2
      · rw [hlast hn, hstep hm, List.append_singleton_inj] at h
        exact absurd h.1.symm Nat.toDigits_ne_nil
    · by_cases hm : m < 16
      · rw [hstep hn, hlast hm, List.append_singleton_inj] at h
        exact absurd h.1 Nat.toDigits_ne_nil
      · rw [hstep hn, hstep hm, List.append_singleton_inj] at h
        have hquotient := ih (n / 16) (by omega) h.1
        have hremainder := digitChar_inj _ (by omega) _ (by omega) h.2
        omega

/-- Where a character comes first, it is the same in both. -/
theorem append_cons_inj {c : Char} {a a' x x' : List Char} (ha : c ∉ a) (ha' : c ∉ a')
    (h : a ++ c :: x = a' ++ c :: x') : a = a' ∧ x = x' := by
  induction a generalizing a' with
  | nil =>
    cases a' with
    | nil => exact ⟨rfl, (List.cons.inj h).2⟩
    | cons d a' => exact absurd (List.cons.inj h).1 fun hc => ha' (hc ▸ List.mem_cons_self)
  | cons d a ih =>
    cases a' with
    | nil => exact absurd (List.cons.inj h).1.symm fun hc => ha (hc ▸ List.mem_cons_self)
    | cons d' a' =>
      rw [List.mem_cons, not_or] at ha ha'
      obtain ⟨rfl, hrest⟩ := List.cons.inj h
      obtain ⟨rfl, hx⟩ := ih ha.2 ha'.2 hrest
      exact ⟨rfl, hx⟩

/-- A code point ends at its brace. -/
theorem codePoint_append_inj {c c' : Char} {x x' : List Char}
    (h : codePoint c ++ x = codePoint c' ++ x') : c = c' ∧ x = x' := by
  have hbrace (c : Char) : '\x7d' ∉ Nat.toDigits 16 c.toNat := fun hc => digit_plain hc (by simp)
  unfold codePoint at h
  simp only [List.append_assoc, List.cons_append, List.nil_append, List.cons.injEq, true_and] at h
  obtain ⟨hdigits, hx⟩ := append_cons_inj (hbrace c) (hbrace c') h
  exact ⟨Char.toNat_inj.1 (toDigits_injective hdigits), hx⟩

/-! ## One character -/

/-- The ways to write a character between quotes of the given kind. -/
inductive Written (quote c : Char) : List Char → Prop
  | plain : c ≠ quote → c ≠ '\\' → c ≠ '\n' → Written quote c [c]
  | escape {d : Char} : unescape? d = some c → Written quote c ['\\', d]
  | codePoint : Written quote c (codePoint c)

theorem written_encodeChar {quote : Char} (hquote : unescape? quote = some quote) (c : Char) :
    Written quote c (encodeChar quote c) := by
  unfold encodeChar
  split_ifs with h0 ht hr hn hquoted hhidden
  · exact .escape (h0 ▸ rfl)
  · exact .escape (ht ▸ rfl)
  · exact .escape (hr ▸ rfl)
  · exact .escape (hn ▸ rfl)
  · rcases hquoted with rfl | rfl
    · exact .escape rfl
    · exact .escape hquote
  · exact .codePoint
  · rw [not_or] at hquoted
    exact .plain hquoted.2 hquoted.1 hn

/-- No character is written with the closing quote in front. -/
theorem Written.exists_cons {quote c : Char} {a : List Char} (h : Written quote c a) (hquote : quote ≠ '\\') :
    ∃ d tail, a = d :: tail ∧ d ≠ quote := by
  cases h with
  | plain hne _ _ => exact ⟨c, [], rfl, hne⟩
  | @escape d _ => exact ⟨'\\', [d], rfl, hquote.symm⟩
  | codePoint => exact ⟨'\\', _, rfl, hquote.symm⟩

/-- What was written determines the character, whatever comes after it. -/
theorem Written.inj {quote c c' : Char} {a a' x x' : List Char} (h : Written quote c a)
    (h' : Written quote c' a') (hsame : a ++ x = a' ++ x') : c = c' ∧ x = x' := by
  cases h with
  | plain _ hbackslash _ =>
    cases h' with
    | plain => exact List.cons.inj hsame
    | escape | codePoint => exact absurd (List.cons.inj hsame).1 hbackslash
  | escape hd =>
    cases h' with
    | plain _ hbackslash _ => exact absurd (List.cons.inj hsame).1.symm hbackslash
    | escape hd' =>
      obtain ⟨rfl, hx⟩ := List.cons.inj (List.cons.inj hsame).2
      rw [hd] at hd'
      exact ⟨Option.some.inj hd', hx⟩
    | codePoint =>
      obtain ⟨rfl, -⟩ := List.cons.inj (List.cons.inj hsame).2
      cases hd
  | codePoint =>
    cases h' with
    | plain _ hbackslash _ => exact absurd (List.cons.inj hsame).1.symm hbackslash
    | escape hd =>
      obtain ⟨rfl, -⟩ := List.cons.inj (List.cons.inj hsame).2
      cases hd
    | codePoint => exact codePoint_append_inj hsame

/-! ## Literals -/

/-- A text ends at the first quote that is not written. -/
theorem encode_append_inj {quote : Char} (hquote : unescape? quote = some quote) (hne : quote ≠ '\\')
    {cs cs' x x' : List Char} (h : encode quote cs ++ quote :: x = encode quote cs' ++ quote :: x') :
    cs = cs' ∧ x = x' := by
  have hcons (c : Char) (cs : List Char) : encode quote (c :: cs) = encodeChar quote c ++ encode quote cs := rfl
  induction cs generalizing cs' with
  | nil =>
    cases cs' with
    | nil => exact ⟨rfl, (List.cons.inj h).2⟩
    | cons c' cs' =>
      obtain ⟨d, tail, hd, hdne⟩ := (written_encodeChar hquote c').exists_cons hne
      rw [hcons, hd] at h
      exact absurd (List.cons.inj h).1.symm hdne
  | cons c cs ih =>
    have hc := written_encodeChar hquote c
    rw [hcons] at h
    cases cs' with
    | nil =>
      obtain ⟨d, tail, hd, hdne⟩ := hc.exists_cons hne
      rw [hd] at h
      exact absurd (List.cons.inj h).1 hdne
    | cons c' cs' =>
      rw [hcons, List.append_assoc, List.append_assoc] at h
      obtain ⟨rfl, hrest⟩ := hc.inj (written_encodeChar hquote c') h
      obtain ⟨rfl, hx⟩ := ih hrest
      exact ⟨rfl, hx⟩

/-- A string literal determines the string, whatever comes after it. -/
theorem string_append_inj {s s' : String} {x x' : List Char}
    (h : (string s).toList ++ x = (string s').toList ++ x') : s = s' ∧ x = x' := by
  unfold string at h
  rw [String.toList_ofList, String.toList_ofList, List.append_assoc, List.append_assoc] at h
  obtain ⟨hs, hx⟩ := encode_append_inj rfl (by decide) (List.cons.inj h).2
  exact ⟨String.toList_inj.1 hs, hx⟩

/-- A character literal determines the character, whatever comes after it. -/
theorem char_append_inj {c c' : Char} {x x' : List Char}
    (h : (char c).toList ++ x = (char c').toList ++ x') : c = c' ∧ x = x' := by
  unfold char at h
  rw [String.toList_ofList, String.toList_ofList, List.append_assoc, List.append_assoc] at h
  obtain ⟨rfl, hx⟩ := (written_encodeChar rfl c).inj (written_encodeChar rfl c') (List.cons.inj h).2
  exact ⟨rfl, (List.cons.inj hx).2⟩

theorem string_inj {s s' : String} (h : string s = string s') : s = s' := by
  have hchars : (string s).toList ++ [] = (string s').toList ++ [] := by rw [h]
  exact (string_append_inj hchars).1

theorem char_inj {c c' : Char} (h : char c = char c') : c = c' := by
  have hchars : (char c).toList ++ [] = (char c').toList ++ [] := by rw [h]
  exact (char_append_inj hchars).1

end Scriptling.Text.Quoted
