import Scriptling.Proofs.Token.Patterns

/-!
# Scriptling.Proofs.Token.Lengths -- how far the rules reach

Each rule measures the longest prefix of a text that is in the language of its pattern (`Measures`). Most
languages leave no choice: a run ends at the first character that is not of its class, and a delimited
lexeme where its units are followed by the closing delimiter, of which there is one place at most. Only a
float can end at more than one place, after its fraction or after its exponent.
-/

set_option autoImplicit false

namespace Scriptling.Rule

open Computability Token

/-- The length, if there is one, is that of the longest prefix of the text in the language. -/
structure Measures (l : Language Char) (cs : List Char) (length : Option Nat) : Prop where
  attained : ∀ n, length = some n → ∃ text ∈ l, text <+: cs ∧ text.length = n
  bound : ∀ text ∈ l, text <+: cs → ∃ n, length = some n ∧ text.length ≤ n

theorem measures_none {l : Language Char} {cs : List Char} (h : ∀ text ∈ l, ¬ text <+: cs) :
    Measures l cs none :=
  ⟨fun _ hn => (Option.some_ne_none _ hn.symm).elim, fun text htext hcs => absurd hcs (h text htext)⟩

/-- A fixed text in front. -/
theorem Measures.just_mul {l : Language Char} {cs : List Char} {n : Nat} (h : Measures l cs (some n))
    (text : List Char) : Measures (just text * l) (text ++ cs) (some (text.length + n)) where
  attained k hk := by
    cases hk
    obtain ⟨a, ha, hcs, hlength⟩ := h.attained n rfl
    exact ⟨text ++ a, mem_just_mul.2 ⟨a, ha, rfl⟩, (List.prefix_append_right_inj text).2 hcs, by
      rw [List.length_append, hlength]⟩
  bound b hb hcs := by
    obtain ⟨a, ha, rfl⟩ := mem_just_mul.1 hb
    obtain ⟨k, hk, hle⟩ := h.bound a ha ((List.prefix_append_right_inj text).1 hcs)
    cases hk
    exact ⟨_, rfl, by rw [List.length_append]; omega⟩

/-- Without the fixed text there is no lexeme. -/
theorem measures_just_mul_none {l : Language Char} {text cs : List Char} (h : ¬ text <+: cs) :
    Measures (just text * l) cs none := by
  refine measures_none fun b hb hcs => h ?_
  obtain ⟨a, _, rfl⟩ := mem_just_mul.1 hb
  exact (List.prefix_append text a).trans hcs

/-! ## Runs -/

section Runs

variable {p : Char → Bool} {P : Char → Prop}

theorem run_append {text : List Char} (h : ∀ c ∈ text, p c = true) (rest : List Char) :
    run p (text ++ rest) = text.length + run p rest := by
  unfold run
  rw [List.takeWhile_append_of_pos h, List.length_append]

theorem run_cons_false {c : Char} (hc : p c = false) (cs : List Char) : run p (c :: cs) = 0 := by
  unfold run
  rw [List.takeWhile_cons_of_neg (by simp [hc]), List.length_nil]

theorem take_run (p : Char → Bool) (cs : List Char) : cs.take (run p cs) = cs.takeWhile p :=
  (List.prefix_iff_eq_take.1 (List.takeWhile_prefix p)).symm

theorem all_take_run (p : Char → Bool) (cs : List Char) : ∀ c ∈ cs.take (run p cs), p c = true := by
  intro c hc
  rw [take_run] at hc
  exact List.all_eq_true.1 List.all_takeWhile c hc

theorem measures_kstar (hp : ∀ c, p c = true ↔ P c) (cs : List Char) :
    Measures (oneOf P)∗ cs (some (run p cs)) where
  attained n hn := by
    cases hn
    refine ⟨cs.take (run p cs), mem_kstar_oneOf.2 fun c hc => ?_, List.take_prefix _ cs, ?_⟩
    · exact (hp c).1 (all_take_run p cs c hc)
    · rw [take_run]
      rfl
  bound text htext hcs := by
    obtain ⟨rest, rfl⟩ := hcs
    refine ⟨_, rfl, ?_⟩
    rw [run_append fun c hc => (hp c).2 (mem_kstar_oneOf.1 htext c hc)]
    omega

theorem measures_someOf (hp : ∀ c, p c = true ↔ P c) (cs : List Char) :
    Measures (someOf P) cs (nonzero? (run p cs)) where
  attained n hn := by
    unfold nonzero? at hn
    split at hn
    · cases hn
    · rename_i hzero
      obtain ⟨text, htext, hcs, hlength⟩ := (measures_kstar hp cs).attained _ rfl
      cases hn
      refine ⟨text, mem_someOf.2 ⟨?_, mem_kstar_oneOf.1 htext⟩, hcs, hlength⟩
      rintro rfl
      exact hzero hlength.symm
  bound text htext hcs := by
    obtain ⟨hne, hall⟩ := mem_someOf.1 htext
    obtain ⟨n, hn, hle⟩ := (measures_kstar hp cs).bound text (mem_kstar_oneOf.2 hall) hcs
    cases hn
    have hpos : 0 < text.length := List.length_pos_iff.2 hne
    refine ⟨_, ?_, hle⟩
    unfold nonzero?
    rw [if_neg (by omega)]

end Runs

/-! ## Delimited lexemes -/

/-- From the `k`-th character of a lexeme on the text has units, and after them the closing delimiter, which
ends at the `n`-th. -/
def Closes (units : Language Char) (closing : List Char) (k : Nat) (cs : List Char) (n : Nat) : Prop :=
  ∃ body ∈ units∗, body ++ closing <+: cs ∧ n = k + body.length + closing.length

section Extents

variable {units : Language Char} {opening closing cs : List Char} {extent : Nat → List Char → Extent}
  {k n : Nat}

theorem closes_closing (rest : List Char) :
    Closes units closing k (closing ++ rest) (k + closing.length) :=
  ⟨[], Language.nil_mem_kstar _, List.prefix_append closing rest, rfl⟩

theorem closes_unit_append {unit : List Char} (hunit : unit ∈ units)
    (h : Closes units closing (k + unit.length) cs n) : Closes units closing k (unit ++ cs) n := by
  obtain ⟨body, hbody, hcs, rfl⟩ := h
  refine ⟨unit ++ body, append_mem_kstar hunit hbody, ?_, ?_⟩
  · rw [List.append_assoc]
    exact (List.prefix_append_right_inj unit).2 hcs
  · rw [List.length_append]
    omega

/-- An extent that goes on past each unit goes on past any number of them. -/
theorem extent_body_append
    (hunit : ∀ unit ∈ units, ∀ k cs, extent k (unit ++ cs) = extent (k + unit.length) cs)
    {body : List Char} (hbody : body ∈ units∗) (k : Nat) (cs : List Char) :
    extent k (body ++ cs) = extent (k + body.length) cs := by
  -- On the units of the body, each of which moves the count on by its length.
  refine kstar_induction (P := fun body => ∀ k, extent k (body ++ cs) = extent (k + body.length) cs)
    (fun k => rfl) ?_ hbody k
  intro unit hu body _ ih k
  rw [List.append_assoc, hunit unit hu, ih, List.length_append, Nat.add_assoc]

/-- If it is also closed by the closing delimiter, then it is by units and the closing delimiter after them. -/
theorem Closes.closed? (h : Closes units closing k cs n)
    (hunit : ∀ unit ∈ units, ∀ k cs, extent k (unit ++ cs) = extent (k + unit.length) cs)
    (hclosing : ∀ k rest, (extent k (closing ++ rest)).closed? = some (k + closing.length)) :
    (extent k cs).closed? = some n := by
  obtain ⟨body, hbody, ⟨rest, rfl⟩, rfl⟩ := h
  rw [List.append_assoc, extent_body_append hunit hbody, hclosing]

/-- If an extent is closed exactly where units are followed by the closing delimiter, then with the opening
delimiter it measures the lexeme. -/
theorem measures_delimited
    (h : ∀ k cs n, (extent k cs).closed? = some n ↔ Closes units closing k cs n) (cs : List Char) :
    Measures (just opening * units∗ * just closing) (opening ++ cs)
      (extent opening.length cs).closed? where
  attained n hn := by
    obtain ⟨body, hbody, hcs, rfl⟩ := (h _ _ _).1 hn
    refine ⟨opening ++ body ++ closing, mem_between.2 ⟨body, hbody, rfl⟩, ?_, ?_⟩
    · rw [List.append_assoc]
      exact (List.prefix_append_right_inj opening).2 hcs
    · rw [List.length_append, List.length_append]
  bound text htext hcs := by
    obtain ⟨body, hbody, rfl⟩ := mem_between.1 htext
    rw [List.append_assoc] at hcs
    refine ⟨_, (h _ _ _).2 ⟨body, hbody, (List.prefix_append_right_inj opening).1 hcs, rfl⟩, ?_⟩
    rw [List.length_append, List.length_append]

end Extents

/-- A comment goes on past each of its units. -/
theorem commentExtent_unit {unit : List Char} (hunit : unit ∈ commentUnits) (k : Nat)
    (cs : List Char) : commentExtent k (unit ++ cs) = commentExtent (k + unit.length) cs := by
  rcases mem_commentUnits.1 hunit with ⟨c, hc, rfl⟩ | ⟨c, hc, rfl⟩
  · show commentExtent k (c :: cs) = commentExtent (k + 1) cs
    rw [commentExtent]
    all_goals simp [hc]
  · show commentExtent k ('*' :: c :: cs) = commentExtent (k + 2) cs
    rw [commentExtent]
    simp [hc]

/-- A comment is closed where the scanner says, by units and the closing delimiter. -/
theorem commentExtent_closed (k : Nat) (cs : List Char) (n : Nat) :
    (commentExtent k cs).closed? = some n ↔ Closes commentUnits ['*', '/'] k cs n := by
  refine ⟨?_, fun h => h.closed? (fun _ hunit => commentExtent_unit hunit) fun _ _ => rfl⟩
  fun_induction commentExtent k cs with
  | case1 | case2 =>
    intro h
    cases h
  | case3 k cs =>
    intro h
    cases h
    exact closes_closing cs
  | case4 k c cs hc ih =>
    intro h
    have hunit : ['*', c] ∈ commentUnits := mem_commentUnits.2 (.inr ⟨c, hc, rfl⟩)
    exact closes_unit_append hunit (ih h)
  | case5 k c cs hend _ hpair ih =>
    intro h
    -- A star has something after it, or the extent would not be closed, and so it begins a pair.
    have hc : c ≠ '*' := fun hc => by
      cases cs with
      | nil => exact hend hc rfl
      | cons d cs => exact hpair d cs hc rfl
    have hunit : [c] ∈ commentUnits := mem_commentUnits.2 (.inl ⟨c, hc, rfl⟩)
    exact closes_unit_append hunit (ih h)

theorem stringExtent_unit {unit : List Char} (hunit : unit ∈ literalUnits '"') (k : Nat)
    (cs : List Char) : stringExtent k (unit ++ cs) = stringExtent (k + unit.length) cs := by
  rcases mem_literalUnits.1 hunit with ⟨c, ⟨hquote, hbackslash, hbreak⟩, rfl⟩ | ⟨c, hc, rfl⟩
  · show stringExtent k (c :: cs) = stringExtent (k + 1) cs
    rw [stringExtent]
    all_goals simp [hquote, hbackslash, hbreak]
  · show stringExtent k ('\\' :: c :: cs) = stringExtent (k + 2) cs
    rw [stringExtent, if_neg hc]

theorem stringExtent_closed (k : Nat) (cs : List Char) (n : Nat) :
    (stringExtent k cs).closed? = some n ↔ Closes (literalUnits '"') ['"'] k cs n := by
  refine ⟨?_, fun h => h.closed? (fun _ hunit => stringExtent_unit hunit) fun _ _ => rfl⟩
  fun_induction stringExtent k cs with
  | case1 | case3 | case4 | case5 =>
    intro h
    cases h
  | case2 k cs =>
    intro h
    cases h
    exact closes_closing cs
  | case6 k c cs hc ih =>
    intro h
    have hunit : ['\\', c] ∈ literalUnits '"' := mem_literalUnits.2 (.inr ⟨c, hc, rfl⟩)
    exact closes_unit_append hunit (ih h)
  | case7 k c cs hquote hbreak hend hpair ih =>
    intro h
    -- Likewise for a backslash.
    have hbackslash : c ≠ '\\' := fun hc => by
      cases cs with
      | nil => exact hend hc rfl
      | cons d cs => exact hpair d cs hc rfl
    have hunit : [c] ∈ literalUnits '"' :=
      mem_literalUnits.2 (.inl ⟨c, ⟨hquote, hbackslash, hbreak⟩, rfl⟩)
    exact closes_unit_append hunit (ih h)

/-! ## Numbers -/

/-- The letter of an exponent is no digit. -/
theorem isDigit_letter {e : Char} (he : e ∈ ['e', 'E']) : e.isDigit = false := by
  rcases List.mem_pair.1 he with rfl | rfl <;> rfl

theorem mem_exponents {text : List Char} :
    text ∈ exponents ↔ ∃ e ∈ ['e', 'E'], ∃ ds ∈ someOf Digit,
      text = e :: ds ∨ ∃ s ∈ ['+', '-'], text = e :: s :: ds := by
  unfold exponents
  rw [mul_assoc, mem_oneOf_mul]
  constructor
  · rintro ⟨e, he, _, ⟨sign, hsign, ds, hds, rfl⟩, rfl⟩
    rcases hsign with rfl | ⟨s, hs, rfl⟩
    · exact ⟨e, he, ds, hds, .inl rfl⟩
    · exact ⟨e, he, ds, hds, .inr ⟨s, hs, rfl⟩⟩
  · rintro ⟨e, he, ds, hds, rfl | ⟨s, hs, rfl⟩⟩
    · exact ⟨e, he, ds, ⟨[], .inl rfl, ds, hds, rfl⟩, rfl⟩
    · exact ⟨e, he, s :: ds, ⟨[s], .inr ⟨s, hs, rfl⟩, ds, hds, rfl⟩, rfl⟩

theorem take_run_mem_digits {cs : List Char} (h : run Char.isDigit cs ≠ 0) :
    cs.take (run Char.isDigit cs) ∈ someOf Digit := by
  refine mem_someOf.2 ⟨fun hnil => h ?_, fun c hc => (isDigit_iff c).1 (all_take_run _ cs c hc)⟩
  have hlength := congrArg List.length hnil
  rwa [take_run] at hlength

theorem length_take_run (p : Char → Bool) (cs : List Char) : (cs.take (run p cs)).length = run p cs := by
  rw [take_run]
  rfl

theorem run_digits_append {ds : List Char} (hds : ds ∈ someOf Digit) (rest : List Char) :
    run Char.isDigit (ds ++ rest) = ds.length + run Char.isDigit rest :=
  run_append (fun c hc => (isDigit_iff c).2 ((mem_someOf.1 hds).2 c hc)) rest

theorem exponentLength_unsigned {e d : Char} (he : e ∈ ['e', 'E']) (hd : Digit d) (ds : List Char) :
    exponentLength (e :: d :: ds) =
      if run Char.isDigit (d :: ds) = 0 then 0 else run Char.isDigit (d :: ds) + 1 := by
  rw [exponentLength, if_pos (by simpa using he)]
  dsimp only
  rw [if_neg (by simpa using hd.ne_sign)]

theorem exponentLength_signed {e s : Char} (he : e ∈ ['e', 'E']) (hs : s ∈ ['+', '-'])
    (ds : List Char) :
    exponentLength (e :: s :: ds) =
      if run Char.isDigit ds = 0 then 0 else run Char.isDigit ds + 2 := by
  rw [exponentLength, if_pos (by simpa using he)]
  dsimp only
  rw [if_pos (by simpa using hs)]

/-- The longest exponent in front, which may be empty. -/
theorem measures_exponents (cs : List Char) :
    Measures (optional exponents) cs (some (exponentLength cs)) where
  attained n hn := by
    cases hn
    have hnone : ∃ text ∈ optional exponents, text <+: cs ∧ text.length = 0 :=
      ⟨[], .inl rfl, List.nil_prefix, rfl⟩
    fun_cases exponentLength cs with
    | case1 | case2 | case3 | case5 | case7 => exact hnone
    | case4 e he s ds hs n hn =>
      refine ⟨e :: s :: ds.take n, .inr (mem_exponents.2 ⟨e, by simpa using he, ds.take n,
        take_run_mem_digits hn, .inr ⟨s, by simpa using hs, rfl⟩⟩), ?_, ?_⟩
      · exact (List.prefix_append_right_inj [e, s]).2 (List.take_prefix n ds)
      · rw [List.length_cons, List.length_cons, length_take_run]
    | case6 e he s ds hs n hn =>
      refine ⟨e :: (s :: ds).take n, .inr (mem_exponents.2 ⟨e, by simpa using he, (s :: ds).take n,
        take_run_mem_digits hn, .inl rfl⟩), ?_, ?_⟩
      · exact (List.prefix_append_right_inj [e]).2 (List.take_prefix n (s :: ds))
      · rw [List.length_cons, length_take_run]
  bound text htext hcs := by
    refine ⟨_, rfl, ?_⟩
    rcases htext with rfl | htext
    · exact Nat.zero_le _
    · obtain ⟨rest, rfl⟩ := hcs
      obtain ⟨e, he, ds, hds, rfl | ⟨s, hs, rfl⟩⟩ := mem_exponents.1 htext
      · obtain ⟨d, ds, rfl⟩ := List.exists_cons_of_ne_nil (mem_someOf.1 hds).1
        have hd : Digit d := (mem_someOf.1 hds).2 d List.mem_cons_self
        have hrun := run_digits_append hds rest
        show _ ≤ exponentLength (e :: d :: (ds ++ rest))
        rw [exponentLength_unsigned he hd]
        simp only [List.cons_append, List.length_cons] at hrun ⊢
        rw [hrun, if_neg (by omega)]
        omega
      · have hpos : 0 < ds.length := List.length_pos_iff.2 (mem_someOf.1 hds).1
        show _ ≤ exponentLength (e :: s :: (ds ++ rest))
        rw [exponentLength_signed he hs, run_digits_append hds rest, if_neg (by omega)]
        simp only [List.length_cons]
        omega

theorem mem_float {text : List Char} :
    text ∈ Pattern.float.language ↔ ∃ whole ∈ someOf Digit, ∃ fraction ∈ someOf Digit,
      ∃ x ∈ optional exponents, text = whole ++ '.' :: (fraction ++ x) := by
  have hassoc : Pattern.float.language =
      someOf Digit * (just ['.'] * (someOf Digit * optional exponents)) := by
    rw [← mul_assoc, ← mul_assoc]
    rfl
  rw [hassoc, Language.mem_mul]
  constructor
  · rintro ⟨whole, hwhole, _, hrest, rfl⟩
    obtain ⟨_, ⟨fraction, hfraction, x, hx, rfl⟩, rfl⟩ := mem_just_mul.1 hrest
    exact ⟨whole, hwhole, fraction, hfraction, x, hx, rfl⟩
  · rintro ⟨whole, hwhole, fraction, hfraction, x, hx, rfl⟩
    exact ⟨whole, hwhole, _, mem_just_mul.2 ⟨_, ⟨fraction, hfraction, x, hx, rfl⟩, rfl⟩, rfl⟩

theorem measures_float (cs : List Char) : Measures Pattern.float.language cs (floatLength? cs) where
  attained n hn := by
    unfold floatLength? at hn
    dsimp only at hn
    split at hn
    · cases hn
    · rename_i hwhole
      split at hn
      · rename_i r hr
        split at hn
        · cases hn
        · rename_i hfraction
          cases hn
          obtain ⟨x, hx, hstart, hlength⟩ :=
            (measures_exponents (r.drop (run Char.isDigit r))).attained _ rfl
          refine ⟨_, mem_float.2 ⟨_, take_run_mem_digits hwhole, _, take_run_mem_digits hfraction, x, hx,
            rfl⟩, ?_, ?_⟩
          · obtain ⟨rest, hrest⟩ := hstart
            refine ⟨rest, ?_⟩
            rw [List.append_assoc, List.cons_append, List.append_assoc, hrest, List.take_append_drop,
              ← hr, List.take_append_drop]
          · rw [List.length_append, List.length_cons, List.length_append, length_take_run,
              length_take_run, hlength]
            omega
      · cases hn
  bound text htext hcs := by
    obtain ⟨rest, rfl⟩ := hcs
    obtain ⟨whole, hwhole, fraction, hfraction, x, hx, rfl⟩ := mem_float.1 htext
    rw [List.append_assoc, List.cons_append, List.append_assoc]
    have hrun : run Char.isDigit (whole ++ '.' :: (fraction ++ (x ++ rest))) = whole.length := by
      rw [run_digits_append hwhole, run_cons_false (by decide), Nat.add_zero]
    have hwholePos : 0 < whole.length := List.length_pos_iff.2 (mem_someOf.1 hwhole).1
    have hfractionPos : 0 < fraction.length := List.length_pos_iff.2 (mem_someOf.1 hfraction).1
    have hfractionRun := run_digits_append hfraction (x ++ rest)
    have hvalue : floatLength? (whole ++ '.' :: (fraction ++ (x ++ rest))) =
        some (whole.length + 1 + run Char.isDigit (fraction ++ (x ++ rest)) +
          exponentLength ((fraction ++ (x ++ rest)).drop
            (run Char.isDigit (fraction ++ (x ++ rest))))) := by
      unfold floatLength?
      dsimp only
      rw [hrun, if_neg (by omega), List.drop_left]
      exact if_neg (by omega)
    refine ⟨_, hvalue, ?_⟩
    rw [List.length_append, List.length_cons, List.length_append]
    rcases hx with rfl | hx
    · rw [List.length_nil]
      omega
    · -- An exponent starts with a letter, where the digits of the fraction end.
      have hzero : run Char.isDigit (x ++ rest) = 0 := by
        obtain ⟨e, he, ds, _, rfl | ⟨s, _, rfl⟩⟩ := mem_exponents.1 hx
        · exact run_cons_false (isDigit_letter he) _
        · exact run_cons_false (isDigit_letter he) _
      rw [hzero, Nat.add_zero] at hfractionRun
      rw [hfractionRun, List.drop_left]
      obtain ⟨k, hk, hle⟩ :=
        (measures_exponents (x ++ rest)).bound x (.inr hx) (List.prefix_append x rest)
      cases hk
      omega

/-! ## Characters and names -/

theorem mem_char {text : List Char} :
    text ∈ Pattern.char.language ↔ ∃ unit ∈ literalUnits '\'', text = '\'' :: (unit ++ ['\'']) := by
  unfold Pattern.language
  exact mem_between

theorem measures_char (cs : List Char) : Measures Pattern.char.language cs (charLength? cs) where
  attained n hn := by
    unfold charLength? at hn
    split at hn
    · rename_i c rest
      split at hn
      · cases hn
      · rename_i hc
        cases hn
        have hunit : ['\\', c] ∈ literalUnits '\'' := mem_literalUnits.2 (.inr ⟨c, hc, rfl⟩)
        exact ⟨_, mem_char.2 ⟨_, hunit, rfl⟩, ⟨rest, rfl⟩, rfl⟩
    · rename_i c rest _
      split at hn
      · cases hn
      · rename_i hc
        cases hn
        simp only [Bool.or_eq_true, decide_eq_true_eq, not_or] at hc
        have hunit : [c] ∈ literalUnits '\'' :=
          mem_literalUnits.2 (.inl ⟨c, ⟨hc.1.1, hc.1.2, hc.2⟩, rfl⟩)
        exact ⟨_, mem_char.2 ⟨_, hunit, rfl⟩, ⟨rest, rfl⟩, rfl⟩
    · cases hn
  bound text htext hcs := by
    obtain ⟨rest, rfl⟩ := hcs
    obtain ⟨unit, hunit, rfl⟩ := mem_char.1 htext
    rcases mem_literalUnits.1 hunit with ⟨c, ⟨hquote, hbackslash, hbreak⟩, rfl⟩ | ⟨c, hc, rfl⟩
    · refine ⟨3, ?_, le_rfl⟩
      show charLength? ('\'' :: c :: '\'' :: rest) = some 3
      rw [charLength?]
      all_goals simp [hquote, hbackslash, hbreak]
    · refine ⟨4, ?_, le_rfl⟩
      show charLength? ('\'' :: '\\' :: c :: '\'' :: rest) = some 4
      rw [charLength?, if_neg hc]

theorem measures_name (cs : List Char) : Measures Pattern.name.language cs (length? .word cs) := by
  cases cs with
  | nil =>
    refine measures_none fun text htext hcs => ?_
    obtain ⟨c, _, b, _, rfl⟩ := mem_oneOf_mul.1 htext
    exact absurd (List.prefix_nil.1 hcs) (List.cons_ne_nil c b)
  | cons c cs =>
    have hparts := measures_kstar isWordPart_iff cs
    by_cases hc : isWordStart c = true
    · rw [show length? .word (c :: cs) = some (1 + run isWordPart cs) from if_pos hc]
      refine ⟨fun n hn => ?_, fun text htext hcs => ⟨_, rfl, ?_⟩⟩
      · cases hn
        obtain ⟨b, hb, hstart, hlength⟩ := hparts.attained _ rfl
        refine ⟨c :: b, mem_oneOf_mul.2 ⟨c, (isWordStart_iff c).1 hc, b, hb, rfl⟩,
          (List.prefix_append_right_inj [c]).2 hstart, ?_⟩
        rw [List.length_cons, hlength]
        omega
      · obtain ⟨d, _, b, hb, rfl⟩ := mem_oneOf_mul.1 htext
        obtain ⟨_, hn, hle⟩ := hparts.bound b hb (List.cons_prefix_cons.1 hcs).2
        cases hn
        rw [List.length_cons]
        omega
    · rw [show length? .word (c :: cs) = none from if_neg hc]
      refine measures_none fun text htext hcs => hc ?_
      obtain ⟨d, hd, b, _, rfl⟩ := mem_oneOf_mul.1 htext
      rw [← (List.cons_prefix_cons.1 hcs).1]
      exact (isWordStart_iff d).2 hd

end Scriptling.Rule
