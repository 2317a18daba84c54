import Scriptling.Proofs.Grammar.Depths
import Scriptling.Proofs.Grammar.Prefixes

/-!
# Scriptling.Proofs.Grammar.Chunks -- one outcome for each simple statement

A chunk is a sequence of tokens that ends with its only semicolon and has no brace and no `for` in it. It need not be
a statement. Still it has exactly one outcome, a statement or an error, and the same one wherever it stands, so
a malformed simple statement neither hides nor changes nor adds an error of another one (`chunks_are_read_apart`).

What carries this is where a statement breaks, that is, which of a semicolon, an opening brace and a `for` comes
first in it. A statement that has a semicolon there ends with it (`Statement.breaks_written`). So a statement
that is read from a chunk takes all of it and no more; and what is read before an error, which is the beginning of
some statement, does not reach the semicolon, for else it would be the whole chunk and a statement.
-/

set_option autoImplicit false

namespace Scriptling

open Grammar

/-! ## Where a statement breaks -/

/-- The token ends a simple statement, or shows that the statement is not a simple one. -/
def Token.Breaks : Token → Prop
  | .mark .semicolon | .mark .openBrace | .keyword .for_ => True
  | _ => False

/-- There is no break in an expression. -/
theorem Token.InExpr.not_breaks {t : Token} (h : t.InExpr) : ¬ t.Breaks := by
  cases t with
  | keyword k => cases k <;> simp_all [InExpr, Breaks]
  | mark m => cases m <;> simp_all [InExpr, Breaks]
  | _ => exact id

namespace Grammar

/-- The first of the tokens that breaks, and those before it. -/
structure FirstBreak (front : List Lexeme) (l : Lexeme) : Prop where
  front : ∀ l' ∈ front, ¬ l'.token.Breaks
  breaks : l.token.Breaks

/-- There is only one first break. -/
theorem FirstBreak.unique {front front' rest rest' : List Lexeme} {l l' : Lexeme}
    (h : FirstBreak front l) (h' : FirstBreak front' l')
    (heq : front ++ l :: rest = front' ++ l' :: rest') : front = front' ∧ l = l' ∧ rest = rest' := by
  induction front generalizing front' with
  | nil =>
    cases front' with
    | nil => simpa using heq
    | cons x front' =>
      obtain ⟨rfl, -⟩ := List.cons.inj heq
      exact absurd h.breaks (h'.front l List.mem_cons_self)
  | cons x front ih =>
    cases front' with
    | nil =>
      obtain ⟨rfl, -⟩ := List.cons.inj heq
      exact absurd h'.breaks (h.front x List.mem_cons_self)
    | cons y front' =>
      obtain ⟨rfl, htail⟩ := List.cons.inj heq
      obtain ⟨rfl, hl, hrest⟩ := ih ⟨fun l hl => h.front l (List.mem_cons_of_mem x hl), h.breaks⟩
        ⟨fun l hl => h'.front l (List.mem_cons_of_mem x hl), h'.breaks⟩ htail
      exact ⟨rfl, hl, hrest⟩

/-- The tokens break, and if a semicolon is the first break, then it is the last token and `P` holds. -/
def Broken (P : Prop) (ls : List Lexeme) : Prop :=
  ∃ front l rest, ls = front ++ l :: rest ∧ FirstBreak front l ∧
    (l.token = .mark .semicolon → rest = [] ∧ P)

variable {P : Prop} {v w : Language Lexeme} {ls : List Lexeme}

/-- A semicolon after tokens that do not break. -/
theorem broken_semicolon (hv : Within (fun t => ¬ t.Breaks) v) (hP : P)
    (hls : ls ∈ v * (Token.mark .semicolon).word) : Broken P ls := by
  obtain ⟨front, hfront, semicolon, hsemicolon, rfl⟩ := Language.mem_mul.1 hls
  obtain ⟨line, rfl⟩ := mem_word.1 hsemicolon
  exact ⟨front, _, [], rfl, ⟨hv front hfront, trivial⟩, fun _ => ⟨rfl, hP⟩⟩

/-- A body after tokens that do not break. -/
theorem broken_body (hv : Within (fun t => ¬ t.Breaks) v) {t : Token} (ht : t.Breaks)
    (hsemicolon : t ≠ .mark .semicolon) (hw : StartsWith (· = t) w) (hls : ls ∈ v * w) : Broken P ls := by
  obtain ⟨front, hfront, body, hbody, rfl⟩ := Language.mem_mul.1 hls
  obtain ⟨l, rest, rfl, rfl⟩ := hw body hbody
  exact ⟨front, l, rest, rfl, ⟨hv front hfront, ht⟩, fun h => absurd h hsemicolon⟩

end Grammar

/-- There is no break in the ways to write an expression. -/
theorem Expr.flows_written (e : Expr) : Within (fun t => ¬ t.Breaks) e.written :=
  fun ls hls l hl => (e.within_written ls hls l hl).not_breaks

theorem ValueType.flows_written (constant : Bool) (type : ValueType) :
    Within (fun t => ¬ t.Breaks) (type.written constant) := by
  cases constant with
  | false => exact within_one.mul (within_word id)
  | true => exact (within_word id).mul (within_word id)

theorem Param.flows_written (p : Param) : Within (fun t => ¬ t.Breaks) p.written :=
  ((within_on id p.line).mul (within_word id)).mul (p.type.flows_written p.constant)

/-- The first break of a variable declaration is the semicolon at its end. -/
theorem VarDecl.breaks_written (d : VarDecl) {P : Prop} (hP : P) :
    ∀ ls ∈ d.written, Broken P ls := by
  have hinitial : Within (fun t => ¬ t.Breaks)
      (d.initial.elim 1 fun e => (Token.assign .plain).word * e.written) := by
    cases d.initial with
    | none => exact within_one
    | some e => exact (within_word id).mul e.flows_written
  have hname : Within (fun t => ¬ t.Breaks)
      ((Token.identifier d.name).on d.line * (Token.mark .colon).word) :=
    (within_on id d.line).mul (within_word id)
  intro ls hls
  exact broken_semicolon ((hname.mul (d.type.flows_written d.constant)).mul hinitial) hP hls

theorem Function.breaks_written (f : Function) {P : Prop} : ∀ ls ∈ f.written, Broken P ls := by
  rcases f with ⟨name, result, params, body, n⟩
  have hname : Within (fun t => ¬ t.Breaks) ((Token.identifier name).on n * (Token.mark .colon).word
      * (Token.keyword .func_).word * (Token.mark .openParen).word) :=
    (((within_on id n).mul (within_word id)).mul (within_word id)).mul (within_word id)
  have hparams : Within (fun t => ¬ t.Breaks) (separated (params.map Param.written)) := by
    refine within_separated id fun w hw => ?_
    obtain ⟨p, -, rfl⟩ := List.mem_map.1 hw
    exact p.flows_written
  have hresult : Within (fun t => ¬ t.Breaks) result.writtenResult := by
    have harrow : Within (fun t => ¬ t.Breaks) (Token.mark .arrow).word := within_word id
    have htype : Within (fun t => ¬ t.Breaks) (Token.typeName result).word := within_word id
    rintro ls (hls | hls)
    · exact harrow.mul htype ls hls
    · split at hls
      · exact (within_one : Within (fun t => ¬ t.Breaks) 1) ls hls
      · exact absurd hls (Language.notMem_zero ls)
  intro ls hls
  rw [Function.written] at hls
  exact broken_body (((hname.mul hparams).mul (within_word id)).mul hresult) (t := .mark .openBrace)
    trivial nofun body.startsWith_written hls

/-- **Where a statement breaks.** A semicolon that is the first break of a statement ends it. -/
theorem Statement.breaks_written (s : Statement) :
    ∀ ls ∈ s.written, Broken (¬ TakesBranches s) ls := by
  intro ls hls
  cases s with
  | var d =>
    rw [written] at hls
    exact d.breaks_written id ls hls
  | func f =>
    rw [written] at hls
    exact f.breaks_written ls hls
  | expr e n =>
    rw [written, Language.mem_iSup] at hls
    obtain ⟨-, hls⟩ := hls
    exact broken_semicolon e.flows_written id hls
  | print e es n =>
    rw [written, Expr.writtenAll_eq_map] at hls
    have hes : Within (fun t => ¬ t.Breaks) (following (es.map Expr.written)) := by
      refine within_following id fun w hw => ?_
      obtain ⟨e, -, rfl⟩ := List.mem_map.1 hw
      exact e.flows_written
    exact broken_semicolon (((within_on id n).mul e.flows_written).mul hes) id hls
  | block b =>
    rw [written, ← one_mul b.written] at hls
    exact broken_body within_one (t := .mark .openBrace) trivial nofun b.startsWith_written hls
  | cond c b rest n =>
    rw [written, mul_assoc] at hls
    exact broken_body ((within_on id n).mul c.flows_written) (t := .mark .openBrace) trivial nofun
      (b.startsWith_written.mul _) hls
  | loop c b n =>
    rw [written] at hls
    exact broken_body ((within_on id n).mul c.flows_written) (t := .mark .openBrace) trivial nofun
      b.startsWith_written hls
  | count d c step b n =>
    -- Here the semicolons of the header come after a `for`.
    simp only [written, mul_assoc, mem_on_mul] at hls
    obtain ⟨tail, -, rfl⟩ := hls
    exact ⟨[], ⟨.keyword .for_, n⟩, tail, rfl, ⟨List.forall_mem_nil _, trivial⟩, nofun⟩
  | return_ v n =>
    rw [written] at hls
    have hv : Within (fun t => ¬ t.Breaks) (v.elim 1 Expr.written) := by
      cases v with
      | none => exact within_one
      | some e => exact e.flows_written
    exact broken_semicolon ((within_on id n).mul hv) id hls
  | exit k n =>
    rw [written] at hls
    have hk : ¬ (Token.keyword k.keyword).Breaks := by
      cases k <;> exact id
    exact broken_semicolon (within_on hk n) id hls

namespace Grammar

/-! ## Chunks -/

/-- The tokens end with their only semicolon, and there are no braces and no `for` among them. -/
structure Chunk (c : List Lexeme) : Prop where
  semicolon : ∃ front line, c = front ++ [⟨.mark .semicolon, line⟩] ∧
    ∀ l ∈ front, l.token ≠ .mark .semicolon
  simple : ∀ l ∈ c, l.token ≠ .mark .openBrace ∧ l.token ≠ .mark .closeBrace ∧
    l.token ≠ .keyword .for_

variable {c : List Lexeme} {chunks : List (List Lexeme)}

/-- The semicolon of a chunk is its first break. -/
theorem Chunk.firstBreak (hc : Chunk c) :
    ∃ front l, c = front ++ [l] ∧ FirstBreak front l ∧ l.token = .mark .semicolon := by
  obtain ⟨front, line, rfl, hfront⟩ := hc.semicolon
  refine ⟨front, _, rfl, ⟨fun l hl => ?_, trivial⟩, rfl⟩
  obtain ⟨hopen, -, hfor⟩ := hc.simple l (List.mem_append_left _ hl)
  intro hbreaks
  unfold Token.Breaks at hbreaks
  split at hbreaks
  · rename_i hsemicolon
    exact hfront l hl hsemicolon
  · rename_i hbrace
    exact hopen hbrace
  · rename_i hkeyword
    exact hfor hkeyword
  · exact hbreaks

/-- A chunk and a statement that begin alike are the same. -/
theorem Chunk.eq_of_written (hc : Chunk c) {s : Statement} {ls more more' : List Lexeme}
    (hls : ls ∈ s.written) (heq : c ++ more = ls ++ more') : c = ls ∧ ¬ TakesBranches s := by
  obtain ⟨front, l, rfl, hfirst, hl⟩ := hc.firstBreak
  obtain ⟨front', l', rest, rfl, hfirst', hends⟩ := s.breaks_written ls hls
  simp only [List.append_assoc, List.cons_append, List.nil_append] at heq
  obtain ⟨rfl, rfl, -⟩ := hfirst.unique hfirst' heq
  obtain ⟨rfl, hbranches⟩ := hends hl
  exact ⟨rfl, hbranches⟩

/-- A chunk is a statement, or there is an error at one of its tokens. -/
theorem Chunk.statement_or_error (hc : Chunk c) :
    (∃ s : Statement, s.Shaped ∧ c ∈ s.written ∧ ¬ TakesBranches s) ∨
      ∃ e front l dropped, c = front ++ l :: dropped ∧ FailsAt e (l :: dropped) c := by
  cases hr : statement c.length c with
  | ok s rest =>
    obtain ⟨hs, front, hfront, hsplit⟩ := (reads_statement _).of_ok hr
    have hwhole : c ++ [] = front ++ rest := by rw [List.append_nil, hsplit]
    obtain ⟨rfl, hbranches⟩ := hc.eq_of_written hfront hwhole
    exact .inl ⟨s, hs, hfront, hbranches⟩
  | error e rest =>
    obtain ⟨front, s, finish, hsplit, hs, hwritten⟩ := (reads_statement _).completable hr
    cases rest with
    | nil =>
      -- All of the chunk would have been read, so it would be a statement.
      rw [List.append_nil] at hsplit
      subst hsplit
      have hstart : c ++ finish = c ++ finish ++ [] := (List.append_nil _).symm
      obtain ⟨hwhole, hbranches⟩ := hc.eq_of_written hwritten hstart
      rw [← hwhole] at hwritten
      have hread : statement c.length (c ++ []) = .ok s [] :=
        statement_rereads hs hwritten hbranches (by rw [List.append_nil])
      rw [List.append_nil, hr] at hread
      cases hread
    | cons l dropped =>
      exact .inr ⟨e, front, l, dropped, hsplit, .of_statement le_rfl hr⟩

/-! ## One outcome for each chunk -/

/-- What is left of a chunk after an error ends with the semicolon, so it is what recovery drops. -/
theorem Chunk.throughSemicolon (hc : Chunk c) {front dropped : List Lexeme} {l : Lexeme}
    (hsplit : c = front ++ l :: dropped) (rest : List Lexeme) : ThroughSemicolon (l :: dropped) rest := by
  obtain ⟨before, line, rfl, hbefore⟩ := hc.semicolon
  obtain ⟨before', last, hdropped⟩ : ∃ before' last, l :: dropped = before' ++ [last] :=
    (List.eq_nil_or_concat' _).resolve_left (List.cons_ne_nil l dropped)
  rw [hdropped, ← List.append_assoc] at hsplit
  obtain ⟨rfl, hlast⟩ := List.append_inj' hsplit rfl
  refine .inl ⟨before', last, hdropped, ?_, fun l' hl' => hbefore l' (List.mem_append_right _ hl')⟩
  rw [← List.singleton_inj.1 hlast]

/-- **A chunk has one outcome.** It makes a segment, a statement or an error that is not one of the end of the
input, and it is the same whatever follows: one round of reading takes the chunk and comes to this. -/
theorem Chunk.exists_segment (hc : Chunk c) :
    ∃ g : Segment, g.lexemes = c ∧ (∀ e ∈ g.error?, ∀ x, e.problem ≠ .endOfInput x) ∧
      ∀ rest line n, (c ++ rest).length ≤ n + 1 → g.Accounted line rest ∧
        ∀ done errors, statements line (n + 1) done errors (c ++ rest) =
          statements line n (g.statement?.toList ++ done) (g.error?.toList ++ errors) rest := by
  rcases hc.statement_or_error with ⟨s, hs, hwritten, hbranches⟩ | ⟨e, front, l, dropped, hsplit, hfails⟩
  · refine ⟨.kept s c, rfl, fun e he => absurd he (Option.not_mem_none e), fun rest line n hn => ?_⟩
    have hread := statement_rereads hs hwritten hbranches hn
    exact ⟨⟨⟨n + 1, hn, hread⟩, hs, hwritten, s.spells c hwritten⟩, fun _ _ => statements_ok hread⟩
  · have hdropped := hc.throughSemicolon hsplit
    subst hsplit
    -- The error names a token, so no other token after it and no last line makes it another one.
    have hnames (rest : List Lexeme) (line : Nat) : e.Names line (l :: (dropped ++ rest)) ∧
        e.locate line = e ∧ ∀ x, e.problem ≠ .endOfInput x := by
      have hagain := (hfails.replace (dropped ++ rest)) _ le_rfl
      cases ((reads_statement _).of_error hagain).2 with
      | unexpected x => exact ⟨.unexpected x l _, rfl, nofun⟩
      | invalidTarget op m => exact ⟨.invalidTarget op m _, rfl, nofun⟩
      | danglingElif m => exact ⟨.danglingElif m _, rfl, nofun⟩
      | danglingElse m => exact ⟨.danglingElse m _, rfl, nofun⟩
    refine ⟨.failed e front (l :: dropped), rfl, ?_, fun rest line n hn => ?_⟩
    · intro e' he'
      cases he'
      exact (hnames [] 0).2.2
    · obtain ⟨hname, hlocate, -⟩ := hnames rest line
      have hsync : synchronize (l :: (dropped ++ rest)) = rest := (hdropped rest).synchronize_eq
      rw [List.append_assoc, List.cons_append] at hn ⊢
      have hread := hfails.replace (dropped ++ rest) (n + 1) hn
      refine ⟨⟨⟨n + 1, e, hn, hread, hlocate.symm⟩, hname, hdropped rest⟩, fun done errors => ?_⟩
      have hne : front ++ l :: (dropped ++ rest) ≠ [] :=
        List.append_ne_nil_of_right_ne_nil _ (List.cons_ne_nil _ _)
      rw [statements_error hne hread, hlocate, hsync]
      rfl

/-- The segment is the chunk, and its statement or its error is what comes of the chunk on its own. An error
is not one of the end of the input. -/
structure OutcomeOf (c : List Lexeme) (g : Segment) : Prop where
  lexemes : g.lexemes = c
  alone : parse c = ⟨g.statement?.toList, g.error?.toList⟩
  error : ∀ e ∈ g.error?, ∀ x, e.problem ≠ .endOfInput x

/-- Chunks are read in as many rounds as there are, each of which takes one. -/
theorem exists_outcomes (h : ∀ c ∈ chunks, Chunk c) (line : Nat) :
    ∃ segments, List.Forall₂ OutcomeOf chunks segments ∧ Segments line segments chunks.flatten ∧
      ∀ n done errors, chunks.flatten.length ≤ n →
        statements line n done errors chunks.flatten =
          ⟨done.reverse ++ segments.filterMap Segment.statement?,
            errors.reverse ++ segments.filterMap Segment.error?⟩ := by
  induction chunks with
  | nil =>
    refine ⟨[], .nil, segments_nil line, fun n done errors _ => ?_⟩
    cases n <;> simp [statements]
  | cons c chunks ih =>
    rw [List.forall_mem_cons] at h
    obtain ⟨hc, hchunks⟩ := h
    obtain ⟨segments, houtcomes, hsegments, hread⟩ := ih hchunks
    obtain ⟨g, hlexemes, herror, hround⟩ := hc.exists_segment
    obtain ⟨front, l, hsplit, -⟩ := hc.firstBreak
    have hpos : c.length = front.length + 1 := by
      rw [hsplit, List.length_append, List.length_singleton]
    have halone : parse c = ⟨g.statement?.toList, g.error?.toList⟩ := by
      have hfirst := (hround [] (lastLine c) front.length (by simp [hpos])).2 [] []
      rw [parse, hpos]
      rw [List.append_nil, List.append_nil, List.append_nil] at hfirst
      rw [hfirst]
      cases g <;> cases front.length <;> rfl
    refine ⟨g :: segments, .cons ⟨hlexemes, halone, herror⟩ houtcomes, ?_, fun n done errors hn => ?_⟩
    · have haccounted := (hround chunks.flatten line _ (Nat.le_succ _)).1
      rw [List.flatten_cons]
      have hcons := hsegments.cons (g := g) (by rw [hlexemes, hsplit]; simp) haccounted
      rwa [hlexemes] at hcons
    · rw [List.flatten_cons] at hn ⊢
      obtain ⟨n, rfl⟩ : ∃ m, n = m + 1 := ⟨n - 1, by rw [List.length_append] at hn; omega⟩
      have hrest : chunks.flatten.length ≤ n := by
        rw [List.length_append] at hn
        omega
      rw [(hround _ line n hn).2, hread n _ _ hrest]
      cases g <;> simp [List.filterMap_cons, Segment.statement?, Segment.error?]

/-- **Chunks are read apart.** Chunks one after another, well-formed or not, have one outcome each, in their
order: a statement or an error, the one that comes of the chunk on its own. -/
theorem chunks_are_read_apart (h : ∀ c ∈ chunks, Chunk c) :
    parse chunks.flatten =
        ⟨chunks.flatMap fun c => (parse c).statements, chunks.flatMap fun c => (parse c).errors⟩ ∧
      ∃ segments, Layout chunks.flatten segments ∧ List.Forall₂ OutcomeOf chunks segments := by
  obtain ⟨segments, houtcomes, hsegments, hread⟩ := exists_outcomes h (lastLine chunks.flatten)
  have hparse : parse chunks.flatten =
      ⟨segments.filterMap Segment.statement?, segments.filterMap Segment.error?⟩ :=
    hread _ [] [] le_rfl
  have hapart : (chunks.flatMap fun c => (parse c).statements) = segments.filterMap Segment.statement? ∧
      (chunks.flatMap fun c => (parse c).errors) = segments.filterMap Segment.error? := by
    clear h hsegments hread hparse
    induction houtcomes with
    | nil => exact ⟨rfl, rfl⟩
    | @cons c g chunks segments hg _ ih =>
      rw [List.flatMap_cons, List.flatMap_cons, ih.1, ih.2, hg.alone]
      cases g <;> exact ⟨rfl, rfl⟩
  refine ⟨?_, segments, ⟨hsegments, ?_, ?_⟩, houtcomes⟩
  · rw [hparse, hapart.1, hapart.2]
  · rw [hparse]
  · rw [hparse]

/-- `if a;` and `else;` are malformed, and `b;` between them is kept. -/
theorem statement_between_errors_is_kept :
    let missingBody : List Lexeme :=
      [⟨.keyword .if_, 1⟩, ⟨.identifier "a", 1⟩, ⟨.mark .semicolon, 1⟩]
    let sound : List Lexeme := [⟨.identifier "b", 2⟩, ⟨.mark .semicolon, 2⟩]
    let missingIf : List Lexeme := [⟨.keyword .else_, 3⟩, ⟨.mark .semicolon, 3⟩]
    (∀ c ∈ [missingBody, sound, missingIf], Chunk c) ∧
      parse (missingBody ++ sound ++ missingIf) =
        ⟨[.expr (.name "b" 2) 2],
          [⟨.unexpected .openBrace (.mark .semicolon), 1⟩, ⟨.danglingBranch .else_, 3⟩]⟩ := by
  intro missingBody sound missingIf
  have hchunk (front : List Lexeme) (line : Nat) (hfront : ∀ l ∈ front, ¬ l.token.Breaks)
      (hbrace : ∀ l ∈ front, l.token ≠ .mark .closeBrace) :
      Chunk (front ++ [⟨.mark .semicolon, line⟩]) := by
    refine ⟨⟨front, line, rfl, fun l hl h => hfront l hl (h ▸ trivial)⟩, ?_⟩
    refine List.forall_mem_append.2 ⟨fun l hl => ?_, by simp⟩
    exact ⟨fun h => hfront l hl (h ▸ trivial), hbrace l hl, fun h => hfront l hl (h ▸ trivial)⟩
  have hchunks : ∀ c ∈ [missingBody, sound, missingIf], Chunk c := by
    simp only [List.forall_mem_cons, List.not_mem_nil, false_implies, implies_true, and_true]
    refine ⟨hchunk [_, _] 1 ?_ ?_, hchunk [_] 2 ?_ ?_, hchunk [_] 3 ?_ ?_⟩ <;> simp [Token.Breaks]
  exact ⟨hchunks, (chunks_are_read_apart hchunks).1⟩

end Grammar

end Scriptling
