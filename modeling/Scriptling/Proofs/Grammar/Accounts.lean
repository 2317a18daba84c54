import Scriptling.Grammar.Parser
import Scriptling.Proofs.Grammar.Writing

/-!
# Scriptling.Proofs.Grammar.Accounts -- what a parser does with the tokens

A parser takes a front part of the tokens and leaves the rest in place. `Accounts` says what can be relied
on after that. If there is a result, then the front part completes a way to write it down; if there is an
error, it names the first token of the rest, or says that there is none, and the front part begins a way to
write something that could have been read instead (`Completable`).

The language `L` holds what was read before, so that `Accounts` composes along the steps of a parser: each
step extends the language by its own words, and the last one has to find a way to write the result in it.
Where a step fails, the later ones are asked what they make of the end of the input: each of them reads
nothing there, or it fails in turn and what it was about to read can be completed.
-/

set_option autoImplicit false

namespace Scriptling

/-- The error names the first of the tokens, or it says that they have ended, on the given line. -/
inductive SyntaxError.Names (endLine : Nat) : SyntaxError → List Lexeme → Prop where
  | unexpected (x : Expected) (l : Lexeme) (ts : List Lexeme) :
    Names endLine ⟨.unexpected x l.token, l.line⟩ (l :: ts)
  | endOfInput (x : Expected) : Names endLine ⟨.endOfInput x, endLine⟩ []
  | invalidTarget (op : AssignOperator) (n : Nat) (ts : List Lexeme) :
    Names endLine ⟨.invalidTarget, n⟩ (⟨.assign op, n⟩ :: ts)
  | danglingElif (n : Nat) (ts : List Lexeme) :
    Names endLine ⟨.danglingBranch .elif_, n⟩ (⟨.keyword .elif_, n⟩ :: ts)
  | danglingElse (n : Nat) (ts : List Lexeme) :
    Names endLine ⟨.danglingBranch .else_, n⟩ (⟨.keyword .else_, n⟩ :: ts)

/-- Putting an error on the last line makes up for the parsers not knowing that line. -/
theorem SyntaxError.Names.locate {e : SyntaxError} {ts : List Lexeme} {n : Nat}
    (h : e.Names n ts) (endLine : Nat) : (e.locate endLine).Names endLine ts := by
  cases h with
  | unexpected x l ts => exact .unexpected x l ts
  | endOfInput x => exact .endOfInput x
  | invalidTarget op m ts => exact .invalidTarget op m ts
  | danglingElif m ts => exact .danglingElif m ts
  | danglingElse m ts => exact .danglingElse m ts

namespace Grammar

/-- After something in `L`, the tokens begin a way to write something of which `P` holds. -/
def Completable {α : Type} (L : Language Lexeme) (P : α → Prop) (S : α → Language Lexeme)
    (front : List Lexeme) : Prop :=
  ∃ a finish, P a ∧ ∀ ls ∈ L, ls ++ front ++ finish ∈ S a

/-- Reading `ts` after something in `L` has taken a front part of `ts`. With a result, `P` holds of it and
what has been read is in the language that `S` gives it; an error names the first token left, and what has
been read can be completed. -/
def Accounts {α : Type} (ts : List Lexeme) (L : Language Lexeme) (P : α → Prop)
    (S : α → Language Lexeme) : EStateM.Result SyntaxError (List Lexeme) α → Prop
  | .ok a rest => P a ∧ ∃ front, ts = front ++ rest ∧ ∀ ls ∈ L, ls ++ front ∈ S a
  | .error e rest => (∃ front, ts = front ++ rest ∧ Completable L P S front) ∧ e.Names 0 rest

/-- The parser reads what satisfies `P`, written as `w` says. -/
def Reads {α : Type} (p : Parser α) (P : α → Prop) (w : α → Language Lexeme) : Prop :=
  ∀ ts L, Accounts ts L P (fun a => L * w a) (p ts)

/-- Read on its own, a result is written with the tokens that were taken. -/
theorem Reads.of_ok {α : Type} {p : Parser α} {P : α → Prop} {w : α → Language Lexeme}
    (hp : Reads p P w) {ts rest : List Lexeme} {a : α} (h : p ts = .ok a rest) :
    P a ∧ ∃ front ∈ w a, ts = front ++ rest := by
  have hread := hp ts 1
  rw [h] at hread
  obtain ⟨ha, front, hts, hwritten⟩ := hread
  have hfront := hwritten [] Language.nil_mem_one
  simp only [List.nil_append, one_mul] at hfront
  exact ⟨ha, front, hfront, hts⟩

/-- An error names the token where the parser has stopped. -/
theorem Reads.of_error {α : Type} {p : Parser α} {P : α → Prop} {w : α → Language Lexeme}
    (hp : Reads p P w) {ts rest : List Lexeme} {e : SyntaxError} (h : p ts = .error e rest) :
    (∃ front, ts = front ++ rest) ∧ e.Names 0 rest := by
  have hread := hp ts 1
  rw [h] at hread
  obtain ⟨⟨front, hts, -⟩, hnames⟩ := hread
  exact ⟨⟨front, hts⟩, hnames⟩

/-- What was read ahead of an error begins a way to write something. -/
theorem Reads.completable {α : Type} {p : Parser α} {P : α → Prop} {w : α → Language Lexeme}
    (hp : Reads p P w) {ts rest : List Lexeme} {e : SyntaxError} (h : p ts = .error e rest) :
    ∃ front a finish, ts = front ++ rest ∧ P a ∧ front ++ finish ∈ w a := by
  have hread := hp ts 1
  rw [h] at hread
  obtain ⟨⟨front, hts, a, finish, ha, hwritten⟩, -⟩ := hread
  have hfront := hwritten [] Language.nil_mem_one
  simp only [List.nil_append, one_mul] at hfront
  exact ⟨front, a, finish, hts, ha, hfront⟩

section Laws

variable {α β : Type} {ts : List Lexeme} {L : Language Lexeme} {P : α → Prop}
  {S : α → Language Lexeme} {P' : β → Prop} {S' : β → Language Lexeme}

/-! ## Completing what was read -/

variable {front : List Lexeme}

/-- Nothing has been read, and this is a way to write something. -/
theorem completable_nil {w : α → Language Lexeme} (a : α) (finish : List Lexeme) (hP : P a)
    (hw : finish ∈ w a) : Completable L P (fun a => L * w a) [] := by
  refine ⟨a, finish, hP, fun ls hls => ?_⟩
  rw [List.append_nil]
  exact Language.append_mem_mul hls hw

theorem Completable.next {t : Token} {n : Nat} (h : Completable (L * t.on n) P S front) :
    Completable L P S (⟨t, n⟩ :: front) := by
  obtain ⟨a, finish, hP, hS⟩ := h
  refine ⟨a, finish, hP, fun ls hls => ?_⟩
  have hread := hS (ls ++ [⟨t, n⟩]) (Language.append_mem_mul hls (t.mem_on n))
  rwa [List.append_assoc ls] at hread

theorem Completable.mono {Q : α → Prop} {T : α → Language Lexeme} (h : Completable L P S front)
    (hQ : ∀ a, P a → Q a) (hT : ∀ a, P a → S a ≤ T a) : Completable L Q T front := by
  obtain ⟨a, finish, hP, hS⟩ := h
  exact ⟨a, finish, hQ a hP, fun ls hls => hT a hP (hS ls hls)⟩

theorem Completable.before {L' : Language Lexeme} (h : Completable L P S front) (hL : L' ≤ L) :
    Completable L' P S front := by
  obtain ⟨a, finish, hP, hS⟩ := h
  exact ⟨a, finish, hP, fun ls hls => hS ls (hL hls)⟩

/-- What was read after something complete can be completed with all that was read. -/
theorem Completable.after {a : α} {front' : List Lexeme} (h : Completable (S a) P' S' front')
    (hS : ∀ ls ∈ L, ls ++ front ∈ S a) : Completable L P' S' (front ++ front') := by
  obtain ⟨b, finish, hP', hS'⟩ := h
  refine ⟨b, finish, hP', fun ls hls => ?_⟩
  rw [← List.append_assoc]
  exact hS' _ (hS ls hls)

/-- A step that has failed can be completed, and then the steps after it can be. -/
theorem Completable.bind {f : α → Parser β} (h : Completable L P S front)
    (hf : ∀ a, P a → Accounts [] (S a) P' S' (f a [])) : Completable L P' S' front := by
  obtain ⟨a, finish, hP, hS⟩ := h
  have hend := hf a hP
  cases hr : f a [] with
  | ok b rest =>
    rw [hr] at hend
    obtain ⟨hP', front', hnil, hS'⟩ := hend
    obtain ⟨rfl, -⟩ := List.nil_eq_append_iff.1 hnil
    refine ⟨b, finish, hP', fun ls hls => ?_⟩
    have hread := hS' _ (hS ls hls)
    rwa [List.append_nil] at hread
  | error e rest =>
    rw [hr] at hend
    obtain ⟨⟨front', hnil, b, finish', hP', hS'⟩, -⟩ := hend
    obtain ⟨rfl, -⟩ := List.nil_eq_append_iff.1 hnil
    refine ⟨b, finish ++ finish', hP', fun ls hls => ?_⟩
    have hread := hS' _ (hS ls hls)
    rwa [List.append_nil, List.append_assoc] at hread

/-! ## Steps of a parser -/

theorem Accounts.ok {a : α} (hP : P a) (hS : L ≤ S a) : Accounts ts L P S (.ok a ts) :=
  ⟨hP, [], rfl, fun ls hls => by
    rw [List.append_nil]
    exact hS hls⟩

theorem Accounts.pure {a : α} (hP : P a) (hS : L ≤ S a) :
    Accounts ts L P S ((Pure.pure a : Parser α) ts) :=
  .ok hP hS

theorem Accounts.error {e : SyntaxError} (h : e.Names 0 ts) (hnil : Completable L P S []) :
    Accounts ts L P S (.error e ts) :=
  ⟨⟨[], rfl, hnil⟩, h⟩

/-- A token that is taken off the front joins what was read before. -/
theorem Accounts.next {t : Token} {n : Nat} {r : EStateM.Result SyntaxError (List Lexeme) α}
    (h : Accounts ts (L * t.on n) P S r) : Accounts (⟨t, n⟩ :: ts) L P S r := by
  cases r with
  | ok a rest =>
    obtain ⟨hP, front, rfl, hS⟩ := h
    refine ⟨hP, ⟨t, n⟩ :: front, rfl, fun ls hls => ?_⟩
    have hread := hS (ls ++ [⟨t, n⟩]) (Language.append_mem_mul hls (t.mem_on n))
    rwa [List.append_assoc] at hread
  | error e rest =>
    obtain ⟨⟨front, rfl, hfront⟩, he⟩ := h
    exact ⟨⟨⟨t, n⟩ :: front, rfl, hfront.next⟩, he⟩

/-- What follows a step goes on from where the step has stopped. -/
theorem Accounts.bind {p : Parser α} {f : α → Parser β} (hp : Accounts ts L P S (p ts))
    (hf : ∀ a rest, P a → Accounts rest (S a) P' S' (f a rest)) :
    Accounts ts L P' S' ((p >>= f) ts) := by
  show Accounts ts L P' S' (EStateM.bind p f ts)
  unfold EStateM.bind
  cases hr : p ts with
  | ok a mid =>
    rw [hr] at hp
    obtain ⟨hP, front, rfl, hS⟩ := hp
    have hnext := hf a mid hP
    dsimp only
    cases hr' : f a mid with
    | ok b rest =>
      rw [hr'] at hnext
      obtain ⟨hP', front', rfl, hS'⟩ := hnext
      refine ⟨hP', front ++ front', (List.append_assoc _ _ _).symm, fun ls hls => ?_⟩
      rw [← List.append_assoc]
      exact hS' _ (hS ls hls)
    | error e rest =>
      rw [hr'] at hnext
      obtain ⟨⟨front', rfl, hfront'⟩, he⟩ := hnext
      exact ⟨⟨front ++ front', (List.append_assoc _ _ _).symm, hfront'.after hS⟩, he⟩
  | error e rest =>
    rw [hr] at hp
    obtain ⟨⟨front, hts, hfront⟩, he⟩ := hp
    exact ⟨⟨front, hts, hfront.bind fun a hP => hf a [] hP⟩, he⟩

theorem Accounts.mono {Q : α → Prop} {T : α → Language Lexeme}
    {r : EStateM.Result SyntaxError (List Lexeme) α} (h : Accounts ts L P S r)
    (hQ : ∀ a, P a → Q a) (hT : ∀ a, P a → S a ≤ T a) : Accounts ts L Q T r := by
  cases r with
  | ok a rest =>
    obtain ⟨hP, front, hts, hS⟩ := h
    exact ⟨hQ a hP, front, hts, fun ls hls => hT a hP (hS ls hls)⟩
  | error e rest =>
    obtain ⟨⟨front, hts, hfront⟩, he⟩ := h
    exact ⟨⟨front, hts, hfront.mono hQ hT⟩, he⟩

/-- More may have been read before than what is relied on. -/
theorem Accounts.before {L' : Language Lexeme} {r : EStateM.Result SyntaxError (List Lexeme) α}
    (h : Accounts ts L P S r) (hL : L' ≤ L) : Accounts ts L' P S r := by
  cases r with
  | ok a rest =>
    obtain ⟨hP, front, hts, hS⟩ := h
    exact ⟨hP, front, hts, fun ls hls => hS ls (hL hls)⟩
  | error e rest =>
    obtain ⟨⟨front, hts, hfront⟩, he⟩ := h
    exact ⟨⟨front, hts, hfront.before hL⟩, he⟩

theorem Accounts.map {p : Parser α} {f : α → β}
    (h : Accounts ts L (fun a => P' (f a)) (fun a => S' (f a)) (p ts)) :
    Accounts ts L P' S' ((f <$> p) ts) := by
  show Accounts ts L P' S' (EStateM.map f p ts)
  unfold EStateM.map
  cases hr : p ts with
  | ok a rest =>
    rw [hr] at h
    exact h
  | error e rest =>
    rw [hr] at h
    obtain ⟨⟨front, hts, a, finish, hP', hS'⟩, he⟩ := h
    exact ⟨⟨front, hts, f a, finish, hP', hS'⟩, he⟩

end Laws

/-! ## Single tokens -/

variable {α : Type} {L : Language Lexeme}

theorem accounts_unexpected {P : α → Prop} {S : α → Language Lexeme} (x : Expected)
    (ts : List Lexeme) (hnil : Completable L P S []) : Accounts ts L P S (unexpected x ts) := by
  cases ts with
  | nil => exact .error (.endOfInput x) hnil
  | cons l ts => exact .error (.unexpected x l ts) hnil

/-- A token that is expected, with its line. -/
theorem reads_expect_on (t : Token) (x : Expected) :
    Reads (expect t x) (fun _ => True) (fun n => t.on n) := by
  intro ts L
  have hnil : Completable L (fun _ => True) (fun n => L * t.on n) [] :=
    completable_nil 0 _ trivial (t.mem_on 0)
  cases ts with
  | nil => exact accounts_unexpected x [] hnil
  | cons l ts =>
    rw [expect]
    split
    · rename_i ht
      subst ht
      exact .next (.ok trivial le_rfl)
    · exact accounts_unexpected x (l :: ts) hnil

/-- A token that is expected, on whatever line. -/
theorem reads_expect (t : Token) (x : Expected) :
    Reads (expect t x) (fun _ => True) (fun _ => t.word) := fun ts L =>
  (reads_expect_on t x ts L).mono (fun _ _ => trivial) fun n _ =>
    mul_le_mul_right (t.on_le_word n) L

/-- A token that may be left out. -/
theorem reads_accept (t : Token) :
    Reads (accept t) (fun _ => True) (fun b => if b then t.word else 1) := by
  intro ts L
  cases ts with
  | nil => exact .ok trivial (mul_one L).ge
  | cons l ts =>
    rw [accept]
    split
    · rename_i ht
      subst ht
      exact .next (.ok trivial (mul_le_mul_right (l.token.on_le_word l.line) L))
    · exact .ok trivial (mul_one L).ge

theorem reads_identifier :
    Reads identifier (fun _ => True) (fun x => (Token.identifier x.1).on x.2) := by
  intro ts L
  unfold identifier
  split
  · exact .next (.ok trivial le_rfl)
  · exact accounts_unexpected _ _ (completable_nil ("x", 0) _ trivial (Token.mem_on _ 0))

/-- A type is one with values unless `void` is allowed. -/
theorem reads_typeName (allowVoid : Bool) :
    Reads (typeName allowVoid) (fun t => allowVoid = false → t ≠ .void)
      (fun t => (Token.typeName t).word) := by
  intro ts L
  have hnil : Completable L (fun t => allowVoid = false → t ≠ .void)
      (fun t => L * (Token.typeName t).word) [] :=
    completable_nil .int _ (fun _ => nofun) ((Token.typeName .int).mem_word 0)
  unfold typeName
  split
  · rename_i t line ts
    split
    · exact accounts_unexpected _ _ hnil
    · rename_i ht
      refine .next (.ok ?_ (mul_le_mul_right ((Token.typeName t).on_le_word line) L))
      intro hv htv
      exact ht ⟨htv, by simp [hv]⟩
  · exact accounts_unexpected _ _ hnil

/-! ## Lists -/

section Lists

variable {item : Parser α} {P : α → Prop} {w : α → Language Lexeme}

/-- A list whose items have been read is completed by its closing parenthesis. -/
theorem completable_listRest :
    Completable L (fun xs : List α => ∀ x ∈ xs, P x)
      (fun xs => L * (following (xs.map w) * (Token.mark .closeParen).word)) [] := by
  refine completable_nil [] [⟨.mark .closeParen, 0⟩] (List.forall_mem_nil _) ?_
  rw [List.map_nil, following, one_mul]
  exact (Token.mark .closeParen).mem_word 0

theorem reads_listRest (hitem : Reads item P w) (n : Nat) :
    Reads (listRest item n) (fun xs => ∀ x ∈ xs, P x)
      (fun xs => following (xs.map w) * (Token.mark .closeParen).word) := by
  induction n with
  | zero => exact fun ts L => accounts_unexpected _ ts completable_listRest
  | succ n ih =>
    intro ts L
    unfold listRest
    split
    · rename_i line ts
      refine .next ((hitem ts _).bind fun x rest hx => (ih rest _).bind fun xs rest hxs =>
        .pure (List.forall_mem_cons.2 ⟨hx, hxs⟩) ?_)
      simp only [List.map_cons, following, mul_assoc]
      gcongr
      exact Token.on_le_word _ line
    · rename_i line ts
      refine .next (.ok (List.forall_mem_nil _) ?_)
      simp only [List.map_nil, following, one_mul]
      gcongr
      exact Token.on_le_word _ line
    · exact accounts_unexpected _ _ completable_listRest

/-- Items with commas between them, and the parenthesis after them. -/
theorem reads_list (hitem : Reads item P w) (n : Nat) :
    Reads (list item n) (fun xs => ∀ x ∈ xs, P x)
      (fun xs => separated (xs.map w) * (Token.mark .closeParen).word) := by
  intro ts L
  unfold list
  split
  · rename_i line ts
    refine .next (.ok (List.forall_mem_nil _) ?_)
    simp only [List.map_nil, separated, one_mul]
    gcongr
    exact Token.on_le_word _ line
  · refine (hitem _ _).bind fun x rest hx => (reads_listRest hitem n rest _).bind fun xs rest hxs =>
      .pure (List.forall_mem_cons.2 ⟨hx, hxs⟩) ?_
    simp only [List.map_cons, separated, mul_assoc, le_refl]

end Lists

end Grammar

end Scriptling
