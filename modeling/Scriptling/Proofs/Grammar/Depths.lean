import Scriptling.Proofs.Grammar.Segments

/-!
# Scriptling.Proofs.Grammar.Depths -- recovery inside of braces

After an error, recovery drops the tokens through the next semicolon, whatever braces are open there. If the error
arises inside of a block, then reading goes on inside of it, and what is left of the block is read as if it stood
by itself: statements in it are kept, and the closing brace is an error of its own.

Nothing else can shift the depth at which reading goes on, because a statement that is kept closes the braces that
it opens (`Statement.depth_tokens`). So a segment begins at the depth at which recovery has ended the last time,
and all of them begin outside of all braces just if recovery always ends there. Which segments these are is
determined by the tokens (`Layout.unique`).

The main result is `segments_begin_where_recovery_ends`.
-/

set_option autoImplicit false

namespace Scriptling

/-! ## Depths -/

/-- How many braces more are open after a token. -/
def Token.brace : Token → Int
  | .mark .openBrace => 1
  | .mark .closeBrace => -1
  | _ => 0

namespace Grammar

/-- How many braces more are open after the tokens than before. -/
def tokenDepth (ts : List Token) : Int := (ts.map Token.brace).sum

/-- The same of tokens with lines. -/
def depth (ts : List Lexeme) : Int := tokenDepth (ts.map Lexeme.token)

section Depth

variable {t : Token} {ts us : List Token}

@[simp] theorem tokenDepth_nil : tokenDepth [] = 0 := rfl

@[simp] theorem tokenDepth_cons : tokenDepth (t :: ts) = t.brace + tokenDepth ts := by
  rw [tokenDepth, List.map_cons, List.sum_cons, tokenDepth]

@[simp] theorem tokenDepth_append : tokenDepth (ts ++ us) = tokenDepth ts + tokenDepth us := by
  rw [tokenDepth, List.map_append, List.sum_append, tokenDepth, tokenDepth]

theorem depth_append (ts us : List Lexeme) : depth (ts ++ us) = depth ts + depth us := by
  rw [depth, List.map_append, tokenDepth_append, depth, depth]

theorem UpToVoid.tokenDepth_eq (h : UpToVoid ts us) : tokenDepth ts = tokenDepth us := by
  induction h with
  | nil => rfl
  | cons t _ ih => rw [tokenDepth_cons, tokenDepth_cons, ih]
  | void _ ih => simpa [Token.brace] using ih

end Depth

/-- No brace is closed that was not opened, and none is left open. -/
structure Balanced (ts : List Lexeme) : Prop where
  nonneg : ∀ front ∈ ts.inits, 0 ≤ depth front
  total : depth ts = 0

instance (ts : List Lexeme) : Decidable (Balanced ts) :=
  decidable_of_iff ((∀ front ∈ ts.inits, 0 ≤ depth front) ∧ depth ts = 0)
    ⟨fun h => ⟨h.1, h.2⟩, fun h => ⟨h.1, h.2⟩⟩

/-! ## Statements close their braces -/

/-- The braces are closed in each of several items. -/
def Closed (ws : List (List Token)) : Prop := ∀ w ∈ ws, tokenDepth w = 0

theorem Closed.followingTokens {ws : List (List Token)} (h : Closed ws) :
    tokenDepth (followingTokens ws) = 0 := by
  induction ws with
  | nil => rfl
  | cons w ws ih =>
    rw [Closed, List.forall_mem_cons] at h
    simp [Grammar.followingTokens, Token.brace, h.1, ih h.2]

theorem Closed.separatedTokens {ws : List (List Token)} (h : Closed ws) :
    tokenDepth (separatedTokens ws) = 0 := by
  cases ws with
  | nil => rfl
  | cons w ws =>
    rw [Closed, List.forall_mem_cons] at h
    simp [Grammar.separatedTokens, h.1, Closed.followingTokens h.2]

end Grammar

open Grammar

@[simp] theorem Literal.brace_token (v : Literal) : v.token.brace = 0 := by
  cases v <;> rfl

@[simp] theorem UnaryOperator.brace_token (op : UnaryOperator) : op.token.brace = 0 := by
  cases op <;> rfl

mutual

theorem Expr.depth_tokens : ∀ e : Expr, tokenDepth e.tokens = 0
  | .literal v _ => by simp [tokens]
  | .name x _ => by simp [tokens, Token.brace]
  | .group e _ => by simp [tokens, Token.brace, e.depth_tokens]
  | .call f args _ => by simp [tokens, Token.brace, (Expr.closed_tokensAll args).separatedTokens]
  | .cast t e _ => by simp [tokens, Token.brace, e.depth_tokens]
  | .unary op e _ => by simp [tokens, e.depth_tokens]
  | .binary op l r _ => by simp [tokens, Token.brace, l.depth_tokens, r.depth_tokens]
  | .assign op x e _ => by simp [tokens, Token.brace, e.depth_tokens]

theorem Expr.closed_tokensAll : ∀ es : List Expr, Closed (Expr.tokensAll es)
  | [] => List.forall_mem_nil _
  | e :: es => List.forall_mem_cons.2 ⟨e.depth_tokens, Expr.closed_tokensAll es⟩

end

theorem ValueType.depth_tokens (constant : Bool) (type : ValueType) :
    tokenDepth (type.tokens constant) = 0 := by
  cases constant <;> rfl

theorem ValueType.depth_resultTokens (type : ValueType) : tokenDepth type.resultTokens = 0 := by
  cases type <;> rfl

theorem Param.depth_tokens (p : Param) : tokenDepth p.tokens = 0 := by
  simp [tokens, Token.brace, ValueType.depth_tokens]

theorem VarDecl.depth_tokens (d : VarDecl) : tokenDepth d.tokens = 0 := by
  have hinitial : tokenDepth (d.initial.elim [] fun e => .assign .plain :: e.tokens) = 0 := by
    cases d.initial with
    | none => rfl
    | some e => simp [Token.brace, e.depth_tokens]
  simp [tokens, Token.brace, ValueType.depth_tokens, hinitial]

theorem Param.closed_tokens (ps : List Param) : Closed (ps.map Param.tokens) := by
  intro w hw
  obtain ⟨p, -, rfl⟩ := List.mem_map.1 hw
  exact p.depth_tokens

mutual

/-- A block closes the brace that it opens. -/
theorem Block.depth_tokens : ∀ b : Block, tokenDepth b.tokens = 0
  | ⟨statements, _⟩ => by simp [Block.tokens, Token.brace, Statement.depth_tokensAll statements]

theorem Branches.depth_tokens : ∀ bs : Branches, tokenDepth bs.tokens = 0
  | .done => by simp [Branches.tokens]
  | .elif c b rest _ => by
    simp [Branches.tokens, Token.brace, c.depth_tokens, b.depth_tokens, rest.depth_tokens]
  | .otherwise b _ => by simp [Branches.tokens, Token.brace, b.depth_tokens]

theorem Function.depth_tokens : ∀ f : Function, tokenDepth f.tokens = 0
  | ⟨_, result, params, body, _⟩ => by
    simp [Function.tokens, Token.brace, (Param.closed_tokens params).separatedTokens,
      result.depth_resultTokens, body.depth_tokens]

/-- A statement closes the braces that it opens. -/
theorem Statement.depth_tokens : ∀ s : Statement, tokenDepth s.tokens = 0
  | .var d => by simp [Statement.tokens, d.depth_tokens]
  | .func f => by simp [Statement.tokens, f.depth_tokens]
  | .expr e _ => by simp [Statement.tokens, Token.brace, e.depth_tokens]
  | .print e es _ => by
    simp [Statement.tokens, Token.brace, e.depth_tokens, (Expr.closed_tokensAll es).followingTokens]
  | .block b => by simp [Statement.tokens, b.depth_tokens]
  | .cond c b rest _ => by
    simp [Statement.tokens, Token.brace, c.depth_tokens, b.depth_tokens, rest.depth_tokens]
  | .loop c b _ => by simp [Statement.tokens, Token.brace, c.depth_tokens, b.depth_tokens]
  | .count d c s b _ => by
    simp [Statement.tokens, Token.brace, d.depth_tokens, c.depth_tokens, s.depth_tokens, b.depth_tokens]
  | .return_ v _ => by
    cases v with
    | none => simp [Statement.tokens, Token.brace]
    | some e => simp [Statement.tokens, Token.brace, e.depth_tokens]
  | .exit k _ => by simp [Statement.tokens, Token.brace]

theorem Statement.depth_tokensAll : ∀ ss : List Statement, tokenDepth (Statement.tokensAll ss) = 0
  | [] => by simp [Statement.tokensAll]
  | s :: ss => by simp [Statement.tokensAll, s.depth_tokens, Statement.depth_tokensAll ss]

end

/-! ## Where segments begin -/

namespace Grammar

/-- The segments of a sequence of tokens, one for each statement that is kept and one for each error. -/
structure Layout (ts : List Lexeme) (segments : List Segment) : Prop where
  account : Segments (lastLine ts) segments ts
  statements : segments.filterMap Segment.statement? = (parse ts).statements
  errors : segments.filterMap Segment.error? = (parse ts).errors

theorem exists_layout (ts : List Lexeme) : ∃ segments, Layout ts segments := by
  obtain ⟨segments, hsegments, hstatements, herrors⟩ :=
    statements_segments (lastLine ts) ts.length [] [] ts le_rfl
  exact ⟨segments, hsegments, hstatements.symm, herrors.symm⟩

/-- A sequence has one layout. -/
theorem Layout.unique {ts : List Lexeme} {segments segments' : List Segment} (h : Layout ts segments)
    (h' : Layout ts segments') : segments = segments' :=
  h.account.unique h'.account

/-- How many braces are open after the segments. -/
def depthAfter (before : List Segment) : Int := depth (before.flatMap Segment.lexemes)

theorem depthAfter_concat (before : List Segment) (g : Segment) :
    depthAfter (before ++ [g]) = depthAfter before + depth g.lexemes := by
  rw [depthAfter, List.flatMap_append, depth_append, List.flatMap_singleton, depthAfter]

/-- A statement that is kept leaves the depth as it is. -/
theorem Segment.Accounted.depth_kept {endLine : Nat} {rest ts : List Lexeme} {s : Statement}
    (h : (Segment.kept s ts).Accounted endLine rest) : depth ts = 0 := by
  obtain ⟨-, -, -, hspelled⟩ := h
  rw [depth, hspelled.tokenDepth_eq, s.depth_tokens]

/-- The number of braces that were open where reading was taken up last: after an error, or at the beginning. -/
inductive Resumed : List Segment → Int → Prop
  | start : Resumed [] 0
  | kept {before : List Segment} {d : Int} (s : Statement) (ts : List Lexeme) :
    Resumed before d → Resumed (before ++ [.kept s ts]) d
  | failed (before : List Segment) (e : SyntaxError) (consumed dropped : List Lexeme) :
    Resumed (before ++ [.failed e consumed dropped]) (depthAfter (before ++ [.failed e consumed dropped]))

/-- If recovery has ended outside of all braces each time, then that is where reading was taken up. -/
theorem Resumed.eq_zero {before : List Segment} {d : Int} (h : Resumed before d)
    (hfailed : ∀ earlier e consumed dropped later, before = earlier ++ .failed e consumed dropped :: later →
      depthAfter (earlier ++ [.failed e consumed dropped]) = 0) : d = 0 := by
  induction h with
  | start => rfl
  | @kept before d s ts _ ih =>
    refine ih fun earlier e consumed dropped later hsplit => ?_
    refine hfailed earlier e consumed dropped (later ++ [.kept s ts]) ?_
    rw [hsplit, List.append_assoc, List.cons_append]
  | failed before e consumed dropped => exact hfailed before e consumed dropped [] rfl

section Layout

variable {ts : List Lexeme} {segments before after : List Segment} {g : Segment}

theorem Layout.lexemes (h : Layout ts segments) (hsplit : segments = before ++ after) :
    before.flatMap Segment.lexemes ++ after.flatMap Segment.lexemes = ts := by
  rw [← List.flatMap_append, ← hsplit]
  exact h.account.1

theorem Layout.depthAfter_nonneg (h : Layout ts segments) (hts : Balanced ts)
    (hsplit : segments = before ++ after) : 0 ≤ depthAfter before :=
  hts.nonneg _ ((List.mem_inits _ _).2 ⟨_, h.lexemes hsplit⟩)

/-- A segment begins at the depth at which reading was taken up last. -/
theorem Layout.resumed (h : Layout ts segments) (hsplit : segments = before ++ after) :
    Resumed before (depthAfter before) := by
  -- On the segments before, the last one of them first.
  induction before using List.reverseRecOn generalizing after with
  | nil => exact .start
  | append_singleton before g ih =>
    rw [List.append_assoc, List.singleton_append] at hsplit
    cases g with
    | kept s ts' =>
      have hdepth : depth ts' = 0 := (h.account.2 before _ after hsplit).2.depth_kept
      rw [depthAfter_concat, Segment.lexemes, hdepth, add_zero]
      exact (ih hsplit).kept s ts'
    | failed e consumed dropped => exact .failed before e consumed dropped

end Layout

/-- **Recovery decides at which depth reading goes on.** In a sequence of tokens whose braces are balanced, the
segment of a statement or an error begins at the depth at which recovery has ended the last time, or outside of
all braces if there was no error before. So all statements that are kept and all errors are those of segments
that begin outside of all braces if and only if recovery always ends there. -/
theorem segments_begin_where_recovery_ends {ts : List Lexeme} (hts : Balanced ts) :
    ∃ segments, Layout ts segments ∧
      (∀ before g after, segments = before ++ g :: after →
        0 ≤ depthAfter before ∧ Resumed before (depthAfter before)) ∧
      ((∀ before g after, segments = before ++ g :: after → depthAfter before = 0) ↔
        ∀ before e consumed dropped after, segments = before ++ .failed e consumed dropped :: after →
          depthAfter (before ++ [.failed e consumed dropped]) = 0) := by
  obtain ⟨segments, hlayout⟩ := exists_layout ts
  refine ⟨segments, hlayout, fun before g after hsplit => ?_, fun h => ?_, fun h before g after hsplit => ?_⟩
  · exact ⟨hlayout.depthAfter_nonneg hts hsplit, hlayout.resumed hsplit⟩
  · intro before e consumed dropped after hsplit
    cases after with
    | nil =>
      have hall := hlayout.lexemes (hsplit.trans (List.append_nil _).symm)
      rw [List.flatMap_nil, List.append_nil] at hall
      rw [depthAfter, hall]
      exact hts.total
    | cons g after =>
      refine h (before ++ [.failed e consumed dropped]) g after ?_
      rw [hsplit, List.append_assoc, List.singleton_append]
  · refine (hlayout.resumed hsplit).eq_zero fun earlier e consumed dropped later hearlier => ?_
    refine h earlier e consumed dropped (later ++ g :: after) ?_
    rw [hsplit, hearlier, List.append_assoc, List.cons_append]

/-- A function of which the first line in the body lacks a value. -/
def valueless : List Lexeme :=
  [⟨.identifier "f", 1⟩, ⟨.mark .colon, 1⟩, ⟨.keyword .func_, 1⟩, ⟨.mark .openParen, 1⟩,
    ⟨.mark .closeParen, 1⟩, ⟨.mark .openBrace, 1⟩, ⟨.identifier "x", 2⟩, ⟨.assign .plain, 2⟩,
    ⟨.mark .semicolon, 2⟩, ⟨.keyword .print_, 3⟩, ⟨.integer 1, 3⟩, ⟨.mark .semicolon, 3⟩,
    ⟨.mark .closeBrace, 4⟩]

/-- Its segments: what is read up to the missing value, with the semicolon that recovery drops; the next line; and
the closing brace. -/
def valuelessSegments : List Segment :=
  [.failed ⟨.unexpected .expression (.mark .semicolon), 2⟩ (valueless.take 8) [⟨.mark .semicolon, 2⟩],
    .kept (.print (.literal (.int 1) 3) [] 3) [⟨.keyword .print_, 3⟩, ⟨.integer 1, 3⟩, ⟨.mark .semicolon, 3⟩],
    .failed ⟨.unexpected .expression (.mark .closeBrace), 4⟩ [] [⟨.mark .closeBrace, 4⟩]]

theorem layout_valueless : Layout valueless valuelessSegments := by
  have hsemicolon : ThroughSemicolon [⟨.mark .semicolon, 2⟩] (valueless.drop 9) :=
    .inl ⟨[], _, rfl, rfl, List.forall_mem_nil _⟩
  have hend : ThroughSemicolon [⟨.mark .closeBrace, 4⟩] [] := .inr ⟨rfl, by decide⟩
  have hvalue : valuelessSegments[0].Accounted 4 (valueless.drop 9) :=
    accounted_failed (n := 13) (e := ⟨.unexpected .expression (.mark .semicolon), 2⟩) le_rfl rfl hsemicolon
  have hprint : valuelessSegments[1].Accounted 4 (valueless.drop 12) := accounted_kept (n := 4) le_rfl rfl
  have hbrace : valuelessSegments[2].Accounted 4 [] :=
    accounted_failed (n := 1) (e := ⟨.unexpected .expression (.mark .closeBrace), 4⟩) le_rfl rfl hend
  have hlast := (segments_nil 4).cons (g := valuelessSegments[2]) (List.cons_ne_nil _ _) hbrace
  have hnext := hlast.cons (g := valuelessSegments[1]) (List.cons_ne_nil _ _) hprint
  have hsegments := hnext.cons (g := valuelessSegments[0]) (List.cons_ne_nil _ _) hvalue
  exact ⟨hsegments, rfl, rfl⟩

/-- Its braces are balanced. Recovery ends inside of the brace of the function, where the two segments after the
first one begin, and does not always end outside of all braces. -/
theorem valueless_segments :
    Balanced valueless ∧ Layout valueless valuelessSegments ∧
      (depthAfter (valuelessSegments.take 0) = 0 ∧ Resumed (valuelessSegments.take 0) 0) ∧
      (depthAfter (valuelessSegments.take 1) = 1 ∧ Resumed (valuelessSegments.take 1) 1) ∧
      (depthAfter (valuelessSegments.take 2) = 1 ∧ Resumed (valuelessSegments.take 2) 1) ∧
      ¬ ∀ before e consumed dropped after, valuelessSegments = before ++ .failed e consumed dropped :: after →
        depthAfter (before ++ [.failed e consumed dropped]) = 0 := by
  have hbalanced : Balanced valueless := by decide
  obtain ⟨segments, hlayout, hresumed, hends⟩ := segments_begin_where_recovery_ends hbalanced
  obtain rfl := hlayout.unique layout_valueless
  have hfirst := (hresumed (valuelessSegments.take 0) _ _ rfl).2
  have hsecond := (hresumed (valuelessSegments.take 1) _ _ rfl).2
  have hthird := (hresumed (valuelessSegments.take 2) _ _ rfl).2
  refine ⟨hbalanced, hlayout, ⟨rfl, hfirst⟩, ⟨rfl, hsecond⟩, ⟨rfl, hthird⟩, fun hall => ?_⟩
  have hzero : depthAfter (valuelessSegments.take 1) = 0 := hends.2 hall (valuelessSegments.take 1) _ _ rfl
  exact absurd hzero (by decide)

/-- The next line of the body is kept, though it stands in the braces of the function, and the one declaration
leads to two errors, the second of them at its closing brace. -/
theorem rest_of_body_is_kept :
    Balanced valueless ∧ (parse valueless).statements = [.print (.literal (.int 1) 3) [] 3] ∧
      (∀ i : Fin valueless.length, valueless[i].token = .keyword .print_ → depth (valueless.take i) = 1) ∧
      (parse valueless).errors =
        [⟨.unexpected .expression (.mark .semicolon), 2⟩, ⟨.unexpected .expression (.mark .closeBrace), 4⟩] := by
  exact ⟨by decide, rfl, by decide, rfl⟩

end Grammar

end Scriptling
