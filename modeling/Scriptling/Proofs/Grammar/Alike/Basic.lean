import Scriptling.Proofs.Grammar.Accounts
import Scriptling.Proofs.Grammar.Steps
import Scriptling.Proofs.Syntax.Lines

/-!
# Scriptling.Proofs.Grammar.Alike.Basic -- two readings of tokens that begin alike

A parser goes by the tokens it takes and by the one that it stops at. So if other tokens begin with the same
ones, and have the same one after them, the parser does the same with them: it takes as many, and comes to the
same result or to the same error. Nor do line numbers matter to it: with other lines on the tokens it comes to
the same tree on other lines. And a parser that counts down a bound does the same with a greater one. `Agrees`
says all of this of one reading and another parser, and `Alike` of two parsers.

The laws follow the steps of parsers: `Agrees.take` and `Agrees.next` for a token that both take, `Agrees.stop`
where both stop, `Alike.bind` for one part after another. After a part that has taken a token, the bound of the
next one may be smaller (`Alike.bindNext`).
-/

set_option autoImplicit false

namespace Scriptling.Grammar

/-! ## One reading and another -/

/-- A result or an error, with the tokens that are left. -/
abbrev Reading (α : Type) := EStateM.Result SyntaxError (List Lexeme) α

/-- The tokens that are left. -/
def Reading.left {α : Type} : Reading α → List Lexeme
  | .ok _ rest => rest
  | .error _ rest => rest

/-- The same with other tokens left: the result is changed by `g`, and an error is on another line. -/
def Reading.moved {α β : Type} (f : Nat → Nat) (g : α → β) (rest : List Lexeme) :
    Reading α → Reading β
  | .ok a _ => .ok (g a) rest
  | .error e _ => .error (e.reline f) rest

/-- The tokens are at the same place: both have ended, or the next ones are the same, on other lines. -/
def SameNext (f : Nat → Nat) (ts ts' : List Lexeme) : Prop :=
  ts'.head? = ts.head?.map (Lexeme.reline f)

/-- The reading `r` of `ts` is what `q` does, too, with any tokens that begin with the same ones and are at the
same place then. The tokens are at most `m`, and their lines are changed by `f`. -/
def Agrees {α β : Type} (f : Nat → Nat) (m : Nat) (g : α → β) (ts : List Lexeme) (r : Reading α)
    (q : Parser β) : Prop :=
  ∃ front, ts = front ++ r.left ∧
    ∀ rest, SameNext f r.left rest → (front.map (Lexeme.reline f) ++ rest).length ≤ m →
      q (front.map (Lexeme.reline f) ++ rest) = r.moved f g rest

/-- On at most `n` tokens the first parser does what the second one does on at most `d` more. -/
def Alike {α β : Type} (f : Nat → Nat) (d n : Nat) (g : α → β) (p : Parser α) (q : Parser β) :
    Prop :=
  ∀ ts, ts.length ≤ n → Agrees f (d + n) g ts (p ts) q

/-- A result has taken at least one token. -/
def Progresses {α : Type} (p : Parser α) : Prop :=
  ∀ ts a rest, p ts = .ok a rest → rest.length < ts.length

section Laws

variable {α β γ δ : Type} {f : Nat → Nat} {g : α → β} {h : γ → δ} {d n m : Nat} {l : Lexeme}
  {ts : List Lexeme} {r : Reading α} {p : Parser α} {q q' : Parser β}

theorem sameNext_nil {ts' : List Lexeme} : SameNext f [] ts' ↔ ts' = [] := by
  simp [SameNext]

theorem sameNext_cons {ts' : List Lexeme} :
    SameNext f (l :: ts) ts' ↔ ∃ rest, ts' = l.reline f :: rest := by
  cases ts' with
  | nil => simp [SameNext]
  | cons l' rest => simp [SameNext]

theorem sameNext_map (f : Nat → Nat) (ts : List Lexeme) :
    SameNext f ts (ts.map (Lexeme.reline f)) :=
  List.head?_map

theorem sameNext_id (ts : List Lexeme) : SameNext id ts ts := by
  have hmap := sameNext_map id ts
  rwa [Lexeme.reline_id, List.map_id] at hmap

/-- What holds of the next token holds of the other one, as it is the same. -/
theorem SameNext.ahead {P : Token → Prop} {ts' : List Lexeme} (hnext : SameNext f ts ts')
    (hts : Ahead P ts) : Ahead P ts' := by
  cases ts with
  | nil =>
    rw [sameNext_nil.1 hnext]
    exact ahead_nil
  | cons l ts =>
    obtain ⟨rest, rfl⟩ := sameNext_cons.1 hnext
    have hl : P l.token := ahead_cons.1 hts
    exact ahead_cons.2 hl

/-- What was read alike leaves the tokens at the same place, from its first one on. -/
theorem SameNext.append {front rest rest' : List Lexeme} (hrest : SameNext f rest rest') :
    SameNext f (front ++ rest) (front.map (Lexeme.reline f) ++ rest') := by
  cases front with
  | nil => exact hrest
  | cons l front => exact sameNext_cons.2 ⟨_, rfl⟩

/-- A parser all of whose results are written with a token progresses. -/
theorem Reads.progresses {P : α → Prop} {w : α → Language Lexeme} (hp : Reads p P w)
    (hw : ∀ a, ∀ ls ∈ w a, ls ≠ []) : Progresses p := by
  intro ts a rest hr
  obtain ⟨-, front, hfront, rfl⟩ := hp.of_ok hr
  have hne := List.length_pos_iff.2 (hw a front hfront)
  rw [List.length_append]
  omega

/-! ## Single tokens -/

/-- The second parser may be replaced by one that does the same with tokens that begin like the first. -/
theorem Agrees.congr (hr : Agrees f m g ts r q) (hq : ∀ ts', SameNext f ts ts' → q' ts' = q ts') :
    Agrees f m g ts r q' := by
  obtain ⟨front, rfl, hq'⟩ := hr
  refine ⟨front, rfl, fun rest hrest hlength => ?_⟩
  rw [hq _ hrest.append]
  exact hq' rest hrest hlength

/-- It is enough that it does the same with tokens that begin with the next one. -/
theorem Agrees.congrNext (hr : Agrees f m g (l :: ts) r q)
    (hq : ∀ rest, q' (l.reline f :: rest) = q (l.reline f :: rest)) : Agrees f m g (l :: ts) r q' :=
  hr.congr fun ts' hts' => by
    obtain ⟨rest, rfl⟩ := sameNext_cons.1 hts'
    exact hq rest

/-- Both stop where they are. -/
theorem Agrees.stay (hr : r.left = ts) (hq : ∀ ts', SameNext f ts ts' → q ts' = r.moved f g ts') :
    Agrees f m g ts r q :=
  ⟨[], hr.symm, fun rest hrest _ => hq rest (hr ▸ hrest)⟩

/-- Both are at the end of the input. -/
theorem Agrees.nil (hr : r.left = []) (hq : q [] = r.moved f g []) : Agrees f m g [] r q :=
  .stay hr fun ts' hts' => by
    rw [sameNext_nil.1 hts', hq]

/-- Both stop at the next token. -/
theorem Agrees.stop (hr : r.left = l :: ts)
    (hq : ∀ rest, q (l.reline f :: rest) = r.moved f g (l.reline f :: rest)) :
    Agrees f m g (l :: ts) r q :=
  .stay hr fun ts' hts' => by
    obtain ⟨rest, rfl⟩ := sameNext_cons.1 hts'
    exact hq rest

/-- Both take the next token. -/
theorem Agrees.next (hr : Agrees f m g ts r q') (hq : ∀ rest, q (l.reline f :: rest) = q' rest) :
    Agrees f (m + 1) g (l :: ts) r q := by
  obtain ⟨front, rfl, hq'⟩ := hr
  refine ⟨l :: front, rfl, fun rest hrest hlength => ?_⟩
  rw [List.map_cons, List.cons_append, List.length_cons] at hlength
  rw [List.map_cons, List.cons_append, hq]
  exact hq' rest hrest (Nat.le_of_succ_le_succ hlength)

theorem Agrees.le {k : Nat} (hr : Agrees f m g ts r q) (hk : k ≤ m) : Agrees f k g ts r q := by
  obtain ⟨front, hfront, hq⟩ := hr
  exact ⟨front, hfront, fun rest hrest hlength => hq rest hrest (Nat.le_trans hlength hk)⟩

/-- Both take the next token and are done. -/
theorem Agrees.take {a : α} (hq : ∀ rest, q (l.reline f :: rest) = .ok (g a) rest) :
    Agrees f m g (l :: ts) (.ok a ts) q :=
  ⟨[l], rfl, fun rest _ _ => hq rest⟩

/-! ## Parts of a parser -/

theorem Alike.le {k : Nat} (hp : Alike f d n g p q) (hk : k ≤ n) : Alike f d k g p q := by
  intro ts hts
  exact (hp ts (Nat.le_trans hts hk)).le (Nat.add_le_add_left hk d)

/-- Without tokens it is enough to look at the end of the input. -/
theorem alike_zero (hp : Reading.left (p []) = []) (hq : q [] = Reading.moved f g [] (p [])) :
    Alike f d 0 g p q := by
  intro ts hts
  obtain rfl := List.length_eq_zero_iff.1 (Nat.le_zero.1 hts)
  exact .nil hp hq

theorem alike_pure (a : α) (b : β) (hb : b = g a) : Alike f d n g (pure a) (pure b) :=
  fun _ _ => .stay rfl fun _ _ => hb ▸ rfl

/-- One part after another, where the first one takes at least `c` tokens. -/
theorem Alike.bindAfter (c : Nat) {k : α → Parser γ} {k' : β → Parser δ}
    (hp : Alike f d (n + c) g p q)
    (hc : ∀ ts a rest, ts.length ≤ n + c → p ts = .ok a rest → rest.length + c ≤ ts.length)
    (hk : ∀ a, Alike f d n h (k a) (k' (g a))) :
    Alike f d (n + c) h (p >>= k) (q >>= k') := by
  intro ts hts
  obtain ⟨front, hfront, hq⟩ := hp ts hts
  cases hr : p ts with
  | ok a mid =>
    rw [hr] at hfront hq
    have hlength := hc ts a mid hts hr
    obtain ⟨front', hmid, hk'⟩ := hk a mid (by omega)
    rw [bind_ok hr]
    refine ⟨front ++ front', ?_, fun rest hrest hm => ?_⟩
    · rw [List.append_assoc, ← hmid]
      exact hfront
    · rw [List.map_append, List.append_assoc] at hm ⊢
      have hnext : SameNext f mid (front'.map (Lexeme.reline f) ++ rest) := by
        rw [hmid]
        exact hrest.append
      -- The first part has taken as many tokens in both readings.
      have hfront : ts = front ++ mid := hfront
      rw [hfront, List.length_append] at hlength
      rw [bind_ok (hq _ hnext hm)]
      rw [List.length_append, List.length_map] at hm
      exact hk' rest hrest (by omega)
  | error e rest =>
    rw [hr] at hfront hq
    rw [bind_error hr]
    exact ⟨front, hfront, fun rest' hrest hm => bind_error (hq rest' hrest hm)⟩

theorem Alike.bind {k : α → Parser γ} {k' : β → Parser δ} (hp : Alike f d n g p q)
    (hk : ∀ a, Alike f d n h (k a) (k' (g a))) : Alike f d n h (p >>= k) (q >>= k') := by
  refine .bindAfter 0 hp (fun ts a rest hts hr => ?_) hk
  obtain ⟨front, hfront, -⟩ := hp ts hts
  rw [hr] at hfront
  rw [hfront, List.length_append]
  exact Nat.le_add_left _ _

theorem Alike.bindNext {k : α → Parser γ} {k' : β → Parser δ} (hp : Alike f d (n + 1) g p q)
    (hprogress : Progresses p) (hk : ∀ a, Alike f d n h (k a) (k' (g a))) :
    Alike f d (n + 1) h (p >>= k) (q >>= k') :=
  .bindAfter 1 hp (fun ts a rest _ hr => hprogress ts a rest hr) hk

theorem Agrees.map {u : α → γ} {v : β → δ} (hp : Agrees f m g ts (p ts) q)
    (hu : ∀ a, v (g a) = h (u a)) : Agrees f m h ts ((u <$> p) ts) (v <$> q) := by
  obtain ⟨front, hfront, hq⟩ := hp
  cases hr : p ts with
  | ok a mid =>
    rw [hr] at hfront hq
    rw [map_ok hr]
    refine ⟨front, hfront, fun rest hrest hm => ?_⟩
    rw [map_ok (hq rest hrest hm), hu]
    rfl
  | error e mid =>
    rw [hr] at hfront hq
    rw [map_error hr]
    exact ⟨front, hfront, fun rest hrest hm => map_error (hq rest hrest hm)⟩

theorem Alike.map {u : α → γ} {v : β → δ} (hp : Alike f d n g p q)
    (hu : ∀ a, v (g a) = h (u a)) : Alike f d n h (u <$> p) (v <$> q) :=
  fun ts hts => (hp ts hts).map hu

end Laws

end Scriptling.Grammar
