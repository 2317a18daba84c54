import Scriptling.Proofs.Number.Intervals
import Scriptling.Proofs.Token.Readings

/-!
# Scriptling.Proofs.Number.Numerals -- the text of a float is a numeral

Digits are laid out with a point among them or with an exponent behind them. Either way the text is a numeral,
and it stands for the decimal that was laid out (`numeral_write`). The decimal of a float rounds to that float
and to no other, so a float without a sign is determined by its text (`Unsigned.eq_of_text`).
-/

set_option autoImplicit false

namespace Scriptling

open Computability Token

namespace Digits

theorem digit_of_mem_write {n : Nat} {c : Char} (hc : c ∈ write n) : Digit c :=
  (isDigit_iff c).1 (Nat.isDigit_of_mem_toDigits (by decide) (by decide) hc)

theorem write_mem_someOf (n : Nat) : write n ∈ someOf Digit :=
  mem_someOf.2 ⟨Nat.toDigits_ne_nil, fun _ hc => digit_of_mem_write hc⟩

theorem value_write (n : Nat) : value (write n) = n := Nat.ofDigitChars_ten_toDigits

theorem value_append (cs ds : List Char) : value (cs ++ ds) = value cs * 10 ^ ds.length + value ds := by
  induction ds using List.reverseRecOn with
  | nil => simp [value_nil]
  | append_singleton ds d ih =>
    rw [← List.append_assoc, value_concat, ih, value_concat, List.length_append, List.length_singleton, pow_succ]
    ring

theorem value_replicate (n : Nat) : value (List.replicate n '0') = 0 := by
  induction n with
  | zero => rfl
  | succ n ih =>
    rw [List.replicate_succ', value_concat, ih]
    rfl

end Digits

/-- More digits, and as many places down. -/
theorem Decimal.value_shift (n k : Nat) (e : Int) :
    Decimal.value ⟨n * 10 ^ k, e - k⟩ = Decimal.value ⟨n, e⟩ := by
  unfold Decimal.value
  rw [zpow_sub₀ (by norm_num), zpow_natCast]
  push_cast
  field_simp

namespace Binary64

/-! ## Numerals -/

/-- The characters are a numeral that stands for the number: digits with a point among them, or digits and an
exponent. -/
inductive Numeral (v : ℚ) : List Char → Prop
  | point {whole fraction cs : List Char} {e : Int} :
    whole ∈ someOf Digit → fraction ∈ someOf Digit → Exponent cs e →
    Decimal.value ⟨Digits.value (whole ++ fraction), e - fraction.length⟩ = v →
    Numeral v (whole ++ '.' :: fraction ++ cs)
  | noPoint {whole cs : List Char} {e : Int} :
    whole ∈ someOf Digit → Exponent cs e → cs ≠ [] → Decimal.value ⟨Digits.value whole, e⟩ = v →
    Numeral v (whole ++ cs)

section Numeral

variable {v w : ℚ} {cs : List Char}

/-- The part of a float from the exponent on, if there is one, starts with its letter. -/
theorem exists_letter {e : Int} (h : Exponent cs e) (hne : cs ≠ []) :
    ∃ c ds, cs = c :: ds ∧ c ∈ ['e', 'E'] ∧ ∀ d ∈ ds, Digit d ∨ d ∈ ['+', '-'] := by
  have hdigits {ds : List Char} (hds : ds ∈ someOf Digit) : ∀ d ∈ ds, Digit d ∨ d ∈ ['+', '-'] :=
    fun d hd => .inl ((mem_someOf.1 hds).2 d hd)
  cases h with
  | none => exact absurd rfl hne
  | unsigned he hds => exact ⟨_, _, rfl, he, hdigits hds⟩
  | positive he hds =>
    exact ⟨_, _, rfl, he, List.forall_mem_cons.2 ⟨.inr (by decide), hdigits hds⟩⟩
  | negative he hds =>
    exact ⟨_, _, rfl, he, List.forall_mem_cons.2 ⟨.inr (by decide), hdigits hds⟩⟩

theorem ofChars?_noPoint {whole : List Char} {e : Int} (hwhole : whole ∈ someOf Digit)
    (hcs : Exponent cs e) (hne : cs ≠ []) :
    Decimal.ofChars? (whole ++ cs) = some ⟨Digits.value whole, e⟩ := by
  obtain ⟨hnil, hdigits⟩ := mem_someOf.1 hwhole
  have hdigits (c : Char) (hc : c ∈ whole) : c.isDigit = true := (isDigit_iff c).2 (hdigits c hc)
  obtain ⟨c, cs, rfl, hletter, -⟩ := exists_letter hcs hne
  have hc := not_digit_of_exponent hcs
  have htake : (c :: cs).takeWhile Char.isDigit = [] := List.takeWhile_cons_of_neg (by simp [hc])
  have hdrop : (c :: cs).dropWhile Char.isDigit = c :: cs := List.dropWhile_cons_of_neg (by simp [hc])
  unfold Decimal.ofChars?
  rw [List.takeWhile_append_of_pos hdigits, List.dropWhile_append_of_pos hdigits, htake, hdrop, List.append_nil]
  have hread : (if whole.isEmpty && List.isEmpty ([] : List Char) then none
      else (Decimal.exponent? (c :: cs)).map fun e =>
        (⟨Digits.value (whole ++ []), e - ([] : List Char).length⟩ : Decimal)) =
      some ⟨Digits.value whole, e⟩ := by
    rw [List.isEmpty_eq_false_iff.2 hnil, exponent?_of_exponent hcs]
    simp
  -- The letter is no point.
  rcases List.mem_pair.1 hletter with rfl | rfl
  · exact hread
  · exact hread

/-- A numeral is read as the number. -/
theorem Numeral.ofChars? (h : Numeral v cs) : ∃ d, Decimal.ofChars? cs = some d ∧ d.value = v := by
  cases h with
  | point hwhole hfraction hcs hv => exact ⟨_, ofChars?_float hwhole hfraction hcs, hv⟩
  | noPoint hwhole hcs hne hv => exact ⟨_, ofChars?_noPoint hwhole hcs hne, hv⟩

/-- A numeral starts with a digit, and is not made of digits alone. -/
theorem Numeral.exists_cons (h : Numeral v cs) :
    ∃ c tail, cs = c :: tail ∧ Digit c ∧ tail.all Char.isDigit = false := by
  have hsplit {whole rest : List Char} {d : Char} (hwhole : whole ∈ someOf Digit) (hd : d.isDigit = false) :
      ∃ c tail, whole ++ d :: rest = c :: tail ∧ Digit c ∧ tail.all Char.isDigit = false := by
    obtain ⟨hne, hdigits⟩ := mem_someOf.1 hwhole
    obtain ⟨c, whole, rfl⟩ := List.exists_cons_of_ne_nil hne
    refine ⟨c, whole ++ d :: rest, rfl, hdigits c List.mem_cons_self, ?_⟩
    rw [List.all_eq_false]
    exact ⟨d, by simp, by simp [hd]⟩
  cases h with
  | point hwhole _ _ _ =>
    rw [List.append_assoc]
    exact hsplit hwhole rfl
  | noPoint hwhole hcs hne _ =>
    obtain ⟨c, ds, rfl, hc, -⟩ := exists_letter hcs hne
    exact hsplit hwhole (Rule.isDigit_letter hc)

/-- The characters of a numeral. -/
theorem Numeral.mem (h : Numeral v cs) : ∀ c ∈ cs, Digit c ∨ c ∈ ['.', 'e', 'E', '+', '-'] := by
  have hdigits {ds : List Char} (hds : ds ∈ someOf Digit) :
      ∀ c ∈ ds, Digit c ∨ c ∈ ['.', 'e', 'E', '+', '-'] := fun c hc => .inl ((mem_someOf.1 hds).2 c hc)
  have hexponent {e : Int} {cs : List Char} (hcs : Exponent cs e) :
      ∀ c ∈ cs, Digit c ∨ c ∈ ['.', 'e', 'E', '+', '-'] := by
    by_cases hne : cs = []
    · simp [hne]
    · obtain ⟨l, ds, rfl, hl, hds⟩ := exists_letter hcs hne
      refine List.forall_mem_cons.2 ⟨.inr (by simp at hl ⊢; tauto), fun c hc => ?_⟩
      exact (hds c hc).imp id fun hsign => by simp at hsign ⊢; tauto
  cases h with
  | point hwhole hfraction hcs _ =>
    refine List.forall_mem_append.2 ⟨List.forall_mem_append.2 ⟨hdigits hwhole, ?_⟩, hexponent hcs⟩
    exact List.forall_mem_cons.2 ⟨.inr (by decide), hdigits hfraction⟩
  | noPoint hwhole hcs _ _ => exact List.forall_mem_append.2 ⟨hdigits hwhole, hexponent hcs⟩

theorem Numeral.unique (h : Numeral v cs) (h' : Numeral w cs) : v = w := by
  obtain ⟨d, hd, rfl⟩ := h.ofChars?
  obtain ⟨d', hd', rfl⟩ := h'.ofChars?
  rw [hd] at hd'
  rw [Option.some.inj hd']

end Numeral

/-! ## Layout -/

section Layout

variable (n : Nat) (e : Int)

/-- Characters that are digits of the number, or zeros put beside them. -/
theorem mem_someOf_of_digits {cs : List Char} (hne : cs ≠ [])
    (h : ∀ c ∈ cs, c = '0' ∨ c ∈ Digits.write n) : cs ∈ someOf Digit := by
  refine mem_someOf.2 ⟨hne, fun c hc => ?_⟩
  rcases h c hc with rfl | hc
  · exact (isDigit_iff '0').1 (by decide)
  · exact Digits.digit_of_mem_write hc

/-- Digits around a point that are those of the number and `k` zeros behind them. -/
theorem numeral_of_digits {whole fraction : List Char} (k : Nat) (hwhole : whole ∈ someOf Digit)
    (hfraction : fraction ∈ someOf Digit) (hdigits : Digits.value (whole ++ fraction) = n * 10 ^ k)
    (hplaces : (fraction.length : Int) = k - e) :
    Numeral (Decimal.value ⟨n, e⟩) (whole ++ '.' :: fraction) := by
  have hvalue : Decimal.value ⟨Digits.value (whole ++ fraction), 0 - fraction.length⟩ =
      Decimal.value ⟨n, e⟩ := by
    have hexponent : (0 : Int) - fraction.length = e - k := by omega
    rw [hdigits, hexponent, Decimal.value_shift]
  have hnumeral := Numeral.point hwhole hfraction .none hvalue
  rwa [List.append_nil] at hnumeral

/-- The digits start after the point. -/
theorem numeral_below (k : Nat) (hk : e + (Digits.write n).length = -k) :
    Numeral (Decimal.value ⟨n, e⟩) (['0'] ++ '.' :: (List.replicate k '0' ++ Digits.write n)) := by
  refine numeral_of_digits n e 0 (mem_someOf_of_digits n (by simp) (by simp))
    (mem_someOf_of_digits n ?_ fun c hc => ?_) ?_ ?_
  · exact List.append_ne_nil_of_right_ne_nil _ Nat.toDigits_ne_nil
  · exact (List.mem_append.1 hc).imp List.eq_of_mem_replicate id
  · rw [Digits.value_append, Digits.value_append, Digits.value_replicate, Digits.value_write]
    simp [Digits.value, Digits.valueOf]
  · rw [List.length_append, List.length_replicate]
    omega

/-- The digits end before the point. -/
theorem numeral_above (k : Nat) (hk : e = k) :
    Numeral (Decimal.value ⟨n, e⟩) (Digits.write n ++ List.replicate k '0' ++ '.' :: ['0']) := by
  refine numeral_of_digits n e (k + 1) (mem_someOf_of_digits n ?_ fun c hc => ?_)
    (mem_someOf_of_digits n (by simp) (by simp)) ?_ ?_
  · exact List.append_ne_nil_of_left_ne_nil Nat.toDigits_ne_nil _
  · exact (List.mem_append.1 hc).symm.imp List.eq_of_mem_replicate id
  · rw [Digits.value_concat, Digits.value_append, Digits.value_replicate, Digits.value_write,
      List.length_replicate, pow_succ]
    simp only [Digits.valueOf, Nat.sub_self]
    ring
  · rw [List.length_singleton]
    omega

/-- The point is among the digits. -/
theorem numeral_inside (k : Nat) (hpos : 0 < k) (hk : e + (Digits.write n).length = k)
    (hlt : k < (Digits.write n).length) :
    Numeral (Decimal.value ⟨n, e⟩) ((Digits.write n).take k ++ '.' :: (Digits.write n).drop k) := by
  refine numeral_of_digits n e 0 (mem_someOf_of_digits n ?_ fun c hc => .inr (List.mem_of_mem_take hc))
    (mem_someOf_of_digits n ?_ fun c hc => .inr (List.mem_of_mem_drop hc)) ?_ ?_
  · rw [← List.length_pos_iff, List.length_take]
    omega
  · rw [← List.length_pos_iff, List.length_drop]
    omega
  · rw [List.take_append_drop, Digits.value_write, pow_zero, mul_one]
  · rw [List.length_drop]
    omega

theorem numeral_positional : Numeral (Decimal.value ⟨n, e⟩)
    (positional (Digits.write n) (e + (Digits.write n).length - 1)) := by
  have hpos : 0 < (Digits.write n).length := List.length_pos_iff.2 Nat.toDigits_ne_nil
  generalize hplace : e + (Digits.write n).length - 1 = place
  unfold positional
  dsimp only
  split_ifs with hneg hfraction
  · have hnumeral := numeral_below n e (-place - 1).toNat (by omega)
    rwa [List.append_assoc]
  · rw [List.isEmpty_iff, List.drop_eq_nil_iff] at hfraction
    have hnumeral := numeral_above n e (place.toNat + 1 - (Digits.write n).length) (by omega)
    rwa [List.take_of_length_le hfraction, List.append_assoc _ ['.']]
  · rw [List.isEmpty_iff, List.drop_eq_nil_iff, not_le] at hfraction
    have hnumeral := numeral_inside n e (place.toNat + 1) (by omega) (by omega) hfraction
    rwa [List.length_take_of_le hfraction.le, Nat.sub_self, List.replicate_zero, List.append_nil,
      List.append_assoc]

theorem exponent_place (place : Int) : Exponent
    ('e' :: if place < 0 then '-' :: Digits.write place.natAbs else Digits.write place.natAbs) place := by
  have hdigits := Digits.write_mem_someOf place.natAbs
  have hvalue := Digits.value_write place.natAbs
  split_ifs with hneg
  · have h := Exponent.negative (e := 'e') (by decide) hdigits
    have hplace : -(place.natAbs : Int) = place := by omega
    rwa [hvalue, hplace] at h
  · have h := Exponent.unsigned (e := 'e') (by decide) hdigits
    have hplace : (place.natAbs : Int) = place := by omega
    rwa [hvalue, hplace] at h

theorem numeral_scientific : Numeral (Decimal.value ⟨n, e⟩)
    (scientific 'e' (Digits.write n) (e + (Digits.write n).length - 1)) := by
  have hwrite := Digits.write_mem_someOf n
  have hvalue := Digits.value_write n
  obtain ⟨d, ds, hds⟩ := List.exists_cons_of_ne_nil (mem_someOf.1 hwrite).1
  rw [hds] at hwrite hvalue ⊢
  have hexponent := exponent_place (e + (d :: ds).length - 1)
  have hdigits := List.forall_mem_cons.1 (mem_someOf.1 hwrite).2
  have hwhole : [d] ∈ someOf Digit := mem_someOf.2 ⟨by simp, by simpa using hdigits.1⟩
  unfold scientific
  dsimp only
  rw [List.drop_succ_cons, List.drop_zero, List.take_succ_cons, List.take_zero, List.append_assoc, List.append_assoc]
  cases ds with
  | nil =>
    have hplace : e + [d].length - 1 = e := by simp
    rw [hplace] at hexponent ⊢
    exact .noPoint hwhole hexponent (by simp) (by rw [hvalue])
  | cons d' ds =>
    have hfraction : d' :: ds ∈ someOf Digit := mem_someOf.2 ⟨by simp, hdigits.2⟩
    have hplace : e + (d :: d' :: ds).length - 1 - (d' :: ds).length = e := by
      simp only [List.length_cons]
      omega
    have hnumeral := Numeral.point hwhole hfraction hexponent (by rw [hplace, List.singleton_append, hvalue])
    rwa [List.append_assoc] at hnumeral

/-- A decimal is laid out as a numeral that stands for it. -/
theorem numeral_write (d : Decimal) : Numeral d.value (style.write d) := by
  unfold Style.write
  dsimp only
  split_ifs
  · exact numeral_positional d.digits d.exponent
  · exact numeral_scientific d.digits d.exponent

end Layout

/-! ## Texts -/

section Texts

variable {x y : Float}

theorem text_of_infinite (hx : read x = .infinite false) : text x = "inf" := by
  unfold text
  rw [hx]
  rfl

/-- The text of a float that is neither negative nor infinite stands for a number that rounds to the float, or
for zero. -/
theorem exists_numeral {m : Nat} {e : Int} (hx : read x = .finite false m e) :
    ∃ v, Numeral v (text x).toList ∧ (m = 0 ∧ v = 0 ∨ 0 < m ∧ Rounds m e v) := by
  unfold text
  rw [String.toList_ofList, hx]
  dsimp only
  rw [if_neg Bool.false_ne_true, List.nil_append]
  split_ifs with hm
  · have hnumeral := numeral_positional 0 0
    rw [Decimal.value, Nat.cast_zero, zero_mul] at hnumeral
    exact ⟨0, hnumeral, .inl ⟨hm, rfl⟩⟩
  · have hpos := Nat.pos_of_ne_zero hm
    exact ⟨_, numeral_write _, .inr ⟨hpos, rounds_shortest hpos e⟩⟩

/-- The text of a float that is not negative, if it is finite, determines it. -/
theorem Unsigned.eq_of_text (hx : Unsigned x) (hy : Unsigned y) (hfinite : read x ≠ .infinite false)
    (hfinite' : read y ≠ .infinite false) (h : text x = text y) : x = y := by
  obtain ⟨m, e, hcanonical, hread⟩ := hx.read_cases.resolve_left hfinite
  obtain ⟨m', e', hcanonical', hread'⟩ := hy.read_cases.resolve_left hfinite'
  obtain ⟨v, hv, hrounds⟩ := exists_numeral hread
  obtain ⟨v', hv', hrounds'⟩ := exists_numeral hread'
  rw [h] at hv
  obtain rfl := hv.unique hv'
  refine hx.eq_of_read hy ?_
  rw [hread, hread']
  rcases hrounds with ⟨rfl, rfl⟩ | ⟨hm, hrounds⟩
  · rcases hrounds' with ⟨rfl, -⟩ | ⟨hm', hrounds'⟩
    · rw [hcanonical.subnormal (by decide), hcanonical'.subnormal (by decide)]
    · exact absurd (hrounds'.pos hm') (lt_irrefl 0)
  · rcases hrounds' with ⟨rfl, rfl⟩ | ⟨hm', hrounds'⟩
    · exact absurd (hrounds.pos hm) (lt_irrefl 0)
    · obtain ⟨rfl, rfl⟩ := hrounds.unique hrounds' hcanonical hcanonical'
      rfl

end Texts

end Binary64

end Scriptling
