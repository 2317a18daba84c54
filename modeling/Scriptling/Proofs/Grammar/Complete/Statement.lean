import Scriptling.Proofs.Grammar.Complete.Expression

/-!
# Scriptling.Proofs.Grammar.Complete.Statement -- written programs are read back

The parser of statements reads back every shaped statement from every way to write it (`rereads_statement`).
The one statement that could go on is a conditional, so the next token must not begin a further branch; in a
block and in a program that holds of itself, because no statement begins so. The main result is
`parse_written`.
-/

set_option autoImplicit false

namespace Scriptling.Grammar

variable {l : Lexeme} {ts rest : List Lexeme} {n : Nat}

/-- The statement goes on with the branches that follow it. -/
def TakesBranches : Statement → Prop
  | .cond _ _ _ _ => True
  | _ => False

/-- No statement begins like a further branch of a conditional. -/
theorem noBranch_of_opens {t : Token} (h : t.OpensStatement) :
    t ≠ .keyword .elif_ ∧ t ≠ .keyword .else_ :=
  ⟨fun heq => by rw [heq] at h; exact h, fun heq => by rw [heq] at h; exact h⟩

/-! ## Declarations -/

/-- The type of a variable and `constant` before it, ahead of anything. -/
theorem typeSpecifier_rereads {constant : Bool} {type : ValueType} {front : List Lexeme}
    (htype : type ≠ .void) (hfront : front ∈ type.written constant) (rest : List Lexeme) :
    typeSpecifier (front ++ rest) = .ok (constant, type) rest := by
  cases constant with
  | true =>
    rw [ValueType.written, if_pos rfl, mem_word_mul] at hfront
    obtain ⟨line, tail, htail, rfl⟩ := hfront
    obtain ⟨typeLine, rfl⟩ := mem_word.1 htail
    exact (bind_ok (accept_self _ _ _)).trans (bind_ok (typeName_self (.inl htype) _ _))
  | false =>
    rw [ValueType.written, if_neg Bool.false_ne_true, one_mul] at hfront
    obtain ⟨typeLine, rfl⟩ := mem_word.1 hfront
    have hother : Ahead (· ≠ .keyword .constant_) (⟨.typeName type, typeLine⟩ :: rest) :=
      ahead_cons.2 (by simp)
    exact (bind_ok (accept_other hother)).trans (bind_ok (typeName_self (.inl htype) _ _))

theorem rereads_param (n : Nat) :
    Rereads n param (fun p => p.type ≠ .void) Param.written Anything := by
  intro p front rest hp hfront _ _
  simp only [Param.written, mul_assoc, mem_on_mul, mem_word_mul] at hfront
  obtain ⟨_, ⟨colonLine, ftype, hftype, rfl⟩, rfl⟩ := hfront
  have htype := typeSpecifier_rereads hp hftype rest
  rw [List.cons_append, List.cons_append, param, bind_ok (identifier_self _ _ _)]
  dsimp only
  rw [bind_ok (expect_self _ _ _ _), bind_ok htype]
  rfl

section Parts

variable {expr : Parser Expr} (hexpr : Rereads (n + 1) expr Expr.Shaped Expr.written ExprEnds)
  {stmt : Parser Statement} (hstmt : Rereads n stmt Statement.Shaped Statement.written NoBranch)

include hexpr in
/-- What follows the colon of a variable. -/
theorem variableRest_rereads {d : VarDecl} {ftype finitial : List Lexeme} (semicolonLine : Nat)
    (rest : List Lexeme) (hd : d.Shaped) (hftype : ftype ∈ d.type.written d.constant)
    (hfinitial : finitial ∈ d.initial.elim 1 fun e => (Token.assign .plain).word * e.written)
    (hn : (ftype ++ (finitial ++ ⟨.mark .semicolon, semicolonLine⟩ :: rest)).length ≤ n) :
    variableRest expr d.name d.line
      (ftype ++ (finitial ++ ⟨.mark .semicolon, semicolonLine⟩ :: rest)) = .ok d rest := by
  rcases d with ⟨name, type, constant, initial, line⟩
  obtain ⟨htype, hinitial⟩ := hd
  have hspecifier := typeSpecifier_rereads htype hftype
    (finitial ++ ⟨.mark .semicolon, semicolonLine⟩ :: rest)
  have hvalue : initialValue expr (finitial ++ ⟨.mark .semicolon, semicolonLine⟩ :: rest) =
      .ok initial (⟨.mark .semicolon, semicolonLine⟩ :: rest) := by
    cases initial with
    | none =>
      have hnone : finitial = [] := hfinitial
      have hother : Ahead (· ≠ .assign .plain) (⟨.mark .semicolon, semicolonLine⟩ :: rest) :=
        ahead_cons.2 nofun
      rw [hnone]
      exact bind_ok (accept_other hother)
    | some e =>
      rw [Option.elim, mem_word_mul] at hfinitial
      obtain ⟨assignLine, fe, hfe, rfl⟩ := hfinitial
      have he := hexpr e fe (⟨.mark .semicolon, semicolonLine⟩ :: rest) (hinitial e rfl) hfe
        (ahead_cons.2 id) (by simp at hn ⊢; omega)
      exact (bind_ok (accept_self _ _ _)).trans (map_ok he)
  exact (bind_ok hspecifier).trans ((bind_ok hvalue).trans (bind_ok (expect_self _ _ _ _)))

include hexpr in
theorem rereads_variableDecl :
    Rereads (n + 1) (variableDecl expr) VarDecl.Shaped VarDecl.written Anything := by
  intro d front rest hd hfront _ hn
  simp only [VarDecl.written, mul_assoc, mem_on_mul, mem_word_mul] at hfront
  obtain ⟨_, ⟨colonLine, afterColon, hafterColon, rfl⟩, rfl⟩ := hfront
  obtain ⟨ftype, hftype, afterType, hafterType, rfl⟩ := Language.mem_mul.1 hafterColon
  obtain ⟨finitial, hfinitial, semicolon, hsemicolon, rfl⟩ := Language.mem_mul.1 hafterType
  obtain ⟨semicolonLine, rfl⟩ := mem_word.1 hsemicolon
  simp only [List.cons_append, List.append_assoc, List.nil_append] at hn ⊢
  have hrest := variableRest_rereads hexpr semicolonLine rest hd hftype hfinitial
    (by simp at hn ⊢; omega)
  rw [variableDecl, bind_ok (identifier_self _ _ _)]
  dsimp only
  rw [bind_ok (expect_self _ _ _ _), hrest]

/-! ## Blocks and functions -/

omit hexpr hstmt in
/-- After a statement there is another one, or what comes after them all. -/
theorem noBranch_writtenAll {ss : List Statement} {front : List Lexeme}
    (hfront : front ∈ Statement.writtenAll ss) (hrest : NoBranch rest) : NoBranch (front ++ rest) := by
  cases ss with
  | nil =>
    rw [Statement.writtenAll] at hfront
    have hnone : front = [] := hfront
    rwa [hnone]
  | cons s ss =>
    rw [Statement.writtenAll] at hfront
    exact ((s.startsWith_written.mul _).ahead hfront rest).mono fun _ ht => noBranch_of_opens ht

omit hexpr hstmt in
/-- In a block there is another statement, or the closing brace. -/
theorem noBranch_statementsRest {ss : List Statement} {front : List Lexeme}
    (hfront : front ∈ Statement.writtenAll ss * (Token.mark .closeBrace).word)
    (rest : List Lexeme) : NoBranch (front ++ rest) := by
  obtain ⟨fs, hfs, brace, hbrace, rfl⟩ := Language.mem_mul.1 hfront
  obtain ⟨line, rfl⟩ := mem_word.1 hbrace
  rw [List.append_assoc]
  exact noBranch_writtenAll hfs (ahead_cons.2 ⟨nofun, nofun⟩)

include hstmt in
/-- Statements and the brace that closes their block. -/
theorem statementsRest_rereads {ss : List Statement} (hss : Statement.ShapedAll ss)
    {front : List Lexeme}
    (hfront : front ∈ Statement.writtenAll ss * (Token.mark .closeBrace).word) {k : Nat}
    (hk : (front ++ rest).length ≤ k) (hkn : k ≤ n) :
    statementsRest stmt k (front ++ rest) = .ok ss rest := by
  induction ss generalizing front k with
  | nil =>
    rw [Statement.writtenAll, one_mul, mem_word] at hfront
    obtain ⟨line, rfl⟩ := hfront
    obtain ⟨k, rfl, -⟩ := bound_cons hk
    rfl
  | cons s ss ih =>
    rw [Statement.ShapedAll] at hss
    rw [Statement.writtenAll, mul_assoc] at hfront
    obtain ⟨fs, hfs, fss, hfss, rfl⟩ := Language.mem_mul.1 hfront
    rw [List.append_assoc] at hk ⊢
    have hahead : NoBranch (fss ++ rest) := noBranch_statementsRest hfss rest
    have hs := hstmt s fs (fss ++ rest) hss.1 hfs hahead (hk.trans hkn)
    obtain ⟨l, tail, rfl, hl⟩ := s.startsWith_written fs hfs
    obtain ⟨k, rfl, hk'⟩ := bound_cons hk
    have hss' := ih hss.2 hfss (bound_append hk') (by omega)
    rw [List.cons_append, statementsRest_of_ne hl.ne_closeBrace, ← List.cons_append, bind_ok hs, bind_ok hss']
    rfl

include hstmt in
theorem rereads_block :
    Rereads (n + 1) (block stmt n) Block.Shaped Block.written Anything := by
  rintro ⟨statements, line⟩ front rest hb hfront _ hn
  rw [Block.Shaped] at hb
  simp only [Block.written, mul_assoc, mem_on_mul] at hfront
  obtain ⟨tail, htail, rfl⟩ := hfront
  have hstatements := statementsRest_rereads hstmt hb htail
    (Nat.le_of_succ_le_succ hn) le_rfl
  rw [List.cons_append, block, bind_ok (expect_self _ _ _ _), bind_ok hstatements]
  rfl

omit hexpr hstmt in
/-- A result type, said or left out, ahead of the brace of a body. -/
theorem resultType_rereads {result : ValueType} {front : List Lexeme}
    (hfront : front ∈ result.writtenResult) (braceLine : Nat) (rest : List Lexeme) :
    resultType (front ++ ⟨.mark .openBrace, braceLine⟩ :: rest) =
      .ok result (⟨.mark .openBrace, braceLine⟩ :: rest) := by
  rcases hfront with hsaid | hunsaid
  · obtain ⟨arrowLine, tail, htail, rfl⟩ := mem_word_mul.1 hsaid
    obtain ⟨typeLine, rfl⟩ := mem_word.1 htail
    exact (bind_ok (accept_self _ _ _)).trans (typeName_self (.inr rfl) _ _)
  · by_cases hvoid : result = .void
    · rw [if_pos hvoid] at hunsaid
      have hnone : front = [] := hunsaid
      have hother : Ahead (· ≠ .mark .arrow) (⟨.mark .openBrace, braceLine⟩ :: rest) :=
        ahead_cons.2 nofun
      rw [hnone, hvoid]
      exact bind_ok (accept_other hother)
    · rw [if_neg hvoid] at hunsaid
      exact absurd hunsaid (Language.notMem_zero front)

include hstmt in
/-- What follows `func`. -/
theorem functionRest_rereads {f : Function} (hf : f.Shaped) {front : List Lexeme}
    (hfront : front ∈ (Token.mark .openParen).word * (separated (f.params.map Param.written)
      * ((Token.mark .closeParen).word * (f.result.writtenResult * f.body.written))))
    (hn : (front ++ rest).length ≤ n) :
    functionRest stmt n f.name f.line (front ++ rest) = .ok f rest := by
  rcases f with ⟨name, result, params, body, line⟩
  rw [Function.Shaped] at hf
  rw [mem_word_mul] at hfront
  obtain ⟨openLine, afterOpen, hafterOpen, rfl⟩ := hfront
  rw [← mul_assoc] at hafterOpen
  obtain ⟨fparams, hfparams, afterParams, hafterParams, rfl⟩ := Language.mem_mul.1 hafterOpen
  obtain ⟨fresult, hfresult, fbody, hfbody, rfl⟩ := Language.mem_mul.1 hafterParams
  simp only [List.cons_append, List.append_assoc] at hn ⊢
  have hlist := list_rereads (rereads_param n) (fun _ _ => trivial) (w := Param.written)
    fun p => (((startsWith_on (by exact nofun) p.line).mul _).mul _)
  have hparams := hlist params fparams (fresult ++ (fbody ++ rest)) hf.1 hfparams trivial
    (by simp at hn ⊢; omega)
  have hbody := rereads_block hstmt body fbody rest hf.2 hfbody trivial (by simp at hn ⊢; omega)
  obtain ⟨t, tail, rfl, ht⟩ := body.startsWith_written fbody hfbody
  rcases t with ⟨t, braceLine⟩
  obtain rfl : t = .mark .openBrace := ht
  have hresult := resultType_rereads hfresult braceLine (tail ++ rest)
  rw [functionRest, bind_ok (expect_self _ _ _ _), bind_ok hparams, List.cons_append, bind_ok hresult,
    ← List.cons_append, bind_ok hbody]
  rfl

/-! ## Simple statements -/

/-- After an expression of a `print` there is a comma or the semicolon. -/
theorem exprEnds_printRest (ws : List (Language Lexeme)) {front : List Lexeme}
    (hfront : front ∈ following ws) (semicolonLine : Nat) (rest : List Lexeme) :
    ExprEnds (front ++ ⟨.mark .semicolon, semicolonLine⟩ :: rest) := by
  cases ws with
  | nil =>
    have hnone : front = [] := hfront
    rw [hnone]
    exact ahead_cons.2 id
  | cons w ws =>
    rw [following, mul_assoc, mem_word_mul] at hfront
    obtain ⟨line, tail, -, rfl⟩ := hfront
    exact ahead_cons.2 id

include hexpr in
theorem printRest_rereads {es : List Expr} (hes : ∀ e ∈ es, e.Shaped) {front : List Lexeme}
    (hfront : front ∈ following (es.map Expr.written)) {semicolonLine k : Nat}
    (hk : (front ++ ⟨.mark .semicolon, semicolonLine⟩ :: rest).length ≤ k) (hkn : k ≤ n) :
    printRest expr k (front ++ ⟨.mark .semicolon, semicolonLine⟩ :: rest) =
      .ok es (⟨.mark .semicolon, semicolonLine⟩ :: rest) := by
  induction es generalizing front k with
  | nil =>
    have hnone : front = [] := hfront
    subst hnone
    obtain ⟨k, rfl, -⟩ := bound_cons hk
    rfl
  | cons e es ih =>
    rw [List.forall_mem_cons] at hes
    rw [List.map_cons, following, mul_assoc, mem_word_mul] at hfront
    obtain ⟨line, tail, htail, rfl⟩ := hfront
    obtain ⟨fe, hfe, fes, hfes, rfl⟩ := Language.mem_mul.1 htail
    rw [List.cons_append, List.append_assoc] at hk ⊢
    obtain ⟨k, rfl, hk'⟩ := bound_cons hk
    have he := hexpr e fe _ hes.1 hfe (exprEnds_printRest _ hfes semicolonLine rest) (by omega)
    have hes' := ih hes.2 hfes (bound_append hk') (by omega)
    show (expr >>= fun e => _) (fe ++ (fes ++ _)) = _
    rw [bind_ok he, bind_ok hes']
    rfl

include hexpr in
theorem printStatement_rereads {e : Expr} {es : List Expr} (he : e.Shaped)
    (hes : ∀ e ∈ es, e.Shaped) {line : Nat} {front : List Lexeme}
    (hfront : front ∈ e.written * (following (es.map Expr.written) * (Token.mark .semicolon).word))
    (hn : (front ++ rest).length ≤ n) :
    printStatement expr n line (front ++ rest) = .ok (.print e es line) rest := by
  obtain ⟨fe, hfe, tail, htail, rfl⟩ := Language.mem_mul.1 hfront
  obtain ⟨fes, hfes, semicolon, hsemicolon, rfl⟩ := Language.mem_mul.1 htail
  obtain ⟨semicolonLine, rfl⟩ := mem_word.1 hsemicolon
  simp only [List.append_assoc, List.cons_append, List.nil_append] at hn ⊢
  have hends := exprEnds_printRest _ hfes semicolonLine rest
  have hfirst := hexpr e fe _ he hfe hends (by omega)
  have hrest := printRest_rereads hexpr hes hfes (bound_append hn) le_rfl
  rw [printStatement, bind_ok hfirst, bind_ok hrest, bind_ok (expect_self _ _ _ _)]
  rfl

include hexpr in
theorem returnStatement_rereads {value : Option Expr} (hvalue : ∀ e ∈ value, e.Shaped) {line : Nat}
    {front : List Lexeme}
    (hfront : front ∈ value.elim 1 Expr.written * (Token.mark .semicolon).word)
    (hn : (front ++ rest).length ≤ n) :
    returnStatement expr line (front ++ rest) = .ok (.return_ value line) rest := by
  cases value with
  | none =>
    rw [Option.elim, one_mul, mem_word] at hfront
    obtain ⟨semicolonLine, rfl⟩ := hfront
    rfl
  | some e =>
    obtain ⟨fe, hfe, semicolon, hsemicolon, rfl⟩ := Language.mem_mul.1 hfront
    obtain ⟨semicolonLine, rfl⟩ := mem_word.1 hsemicolon
    rw [List.append_assoc] at hn ⊢
    have he := hexpr e fe ([⟨.mark .semicolon, semicolonLine⟩] ++ rest) (hvalue e rfl) hfe
      (ahead_cons.2 id) (by omega)
    have hopens := e.startsWith_written.ahead hfe ([⟨.mark .semicolon, semicolonLine⟩] ++ rest)
    rw [returnStatement_of_ahead (hopens.mono fun _ ht => ht.ne_semicolon), bind_ok he]
    exact bind_ok (expect_self _ _ _ _)

include hexpr in
theorem expressionStatement_rereads {e : Expr} (he : e.Shaped) (line : Nat) {front : List Lexeme}
    (hfront : front ∈ e.written * (Token.mark .semicolon).word)
    (hn : (front ++ rest).length ≤ n + 1) :
    expressionStatement expr line (front ++ rest) = .ok (.expr e line) rest := by
  obtain ⟨fe, hfe, semicolon, hsemicolon, rfl⟩ := Language.mem_mul.1 hfront
  obtain ⟨semicolonLine, rfl⟩ := mem_word.1 hsemicolon
  rw [List.append_assoc] at hn ⊢
  have he' := hexpr e fe ([⟨.mark .semicolon, semicolonLine⟩] ++ rest) he hfe (ahead_cons.2 id) hn
  rw [expressionStatement, bind_ok he']
  exact bind_ok (expect_self _ _ _ _)

/-! ## Conditionals and loops -/

/-- An expression ends where a block begins. -/
theorem exprEnds_block {b : Block} {front : List Lexeme} (hfront : front ∈ b.written)
    (rest : List Lexeme) : ExprEnds (front ++ rest) :=
  Ahead.mono (b.startsWith_written.ahead hfront rest) fun _ ht => ht ▸ id

include hexpr hstmt

/-- Further branches, with none after them. -/
theorem branches_rereads : ∀ bs : Branches, ∀ {front rest : List Lexeme} {k : Nat}, bs.Shaped →
    front ∈ bs.written → NoBranch rest → (front ++ rest).length ≤ k → k ≤ n →
    branches expr stmt n k (front ++ rest) = .ok bs rest
  | .done, front, rest, k, _, hfront, hrest, _, _ => by
    rw [Branches.written] at hfront
    have hnone : front = [] := hfront
    rw [hnone]
    exact branches_done hrest k
  | .elif c b bs line, front, rest, k, hbs, hfront, hrest, hk, hkn => by
    rw [Branches.Shaped] at hbs
    simp only [Branches.written, mul_assoc, mem_on_mul] at hfront
    obtain ⟨tail, htail, rfl⟩ := hfront
    obtain ⟨fc, hfc, afterCondition, hafterCondition, rfl⟩ := Language.mem_mul.1 htail
    obtain ⟨fb, hfb, fbs, hfbs, rfl⟩ := Language.mem_mul.1 hafterCondition
    simp only [List.cons_append, List.append_assoc] at hk ⊢
    obtain ⟨k, rfl, hk'⟩ := bound_cons hk
    have hafter := bound_append hk'
    have hc := hexpr c fc _ hbs.1 hfc (exprEnds_block hfb (fbs ++ rest)) (by omega)
    have hb := rereads_block hstmt b fb (fbs ++ rest) hbs.2.1 hfb trivial (by omega)
    have hbs' := branches_rereads bs hbs.2.2 hfbs hrest (bound_append hafter) (by omega)
    show (expr >>= fun c => _) (fc ++ (fb ++ (fbs ++ rest))) = _
    rw [bind_ok hc, bind_ok hb, bind_ok hbs']
    rfl
  | .otherwise b line, front, rest, k, hbs, hfront, _, hk, hkn => by
    rw [Branches.Shaped] at hbs
    rw [Branches.written, mem_on_mul] at hfront
    obtain ⟨fb, hfb, rfl⟩ := hfront
    obtain ⟨k, rfl, hk'⟩ := bound_cons hk
    have hb := rereads_block hstmt b fb rest hbs hfb trivial (by simp at hk'; simp; omega)
    exact bind_ok hb

theorem conditional_rereads {c : Expr} {b : Block} {bs : Branches} (hc : c.Shaped) (hb : b.Shaped)
    (hbs : bs.Shaped) {line : Nat} {front : List Lexeme}
    (hfront : front ∈ c.written * (b.written * bs.written)) (hrest : NoBranch rest)
    (hn : (front ++ rest).length ≤ n) :
    conditional expr stmt n line (front ++ rest) = .ok (.cond c b bs line) rest := by
  obtain ⟨fc, hfc, afterCondition, hafterCondition, rfl⟩ := Language.mem_mul.1 hfront
  obtain ⟨fb, hfb, fbs, hfbs, rfl⟩ := Language.mem_mul.1 hafterCondition
  simp only [List.append_assoc] at hn ⊢
  have hafter := bound_append hn
  have hc' := hexpr c fc _ hc hfc (exprEnds_block hfb (fbs ++ rest)) (by omega)
  have hb' := rereads_block hstmt b fb (fbs ++ rest) hb hfb trivial (by omega)
  have hbs' := branches_rereads hexpr hstmt bs hbs hfbs hrest (bound_append hafter) le_rfl
  rw [conditional, bind_ok hc', bind_ok hb', bind_ok hbs']
  rfl

theorem whileLoop_rereads {c : Expr} {b : Block} (hc : c.Shaped) (hb : b.Shaped) {line : Nat}
    {front : List Lexeme} (hfront : front ∈ c.written * b.written)
    (hn : (front ++ rest).length ≤ n) :
    whileLoop expr stmt n line (front ++ rest) = .ok (.loop c b line) rest := by
  obtain ⟨fc, hfc, fb, hfb, rfl⟩ := Language.mem_mul.1 hfront
  rw [List.append_assoc] at hn ⊢
  have hafter := bound_append hn
  have hc' := hexpr c fc _ hc hfc (exprEnds_block hfb rest) (by omega)
  have hb' := rereads_block hstmt b fb rest hb hfb trivial (by omega)
  rw [whileLoop, bind_ok hc', bind_ok hb']
  rfl

theorem forLoop_rereads {d : VarDecl} {c step : Expr} {b : Block} (hd : d.Shaped) (hc : c.Shaped)
    (hstep : step.Shaped) (hb : b.Shaped) {line : Nat} {front : List Lexeme}
    (hfront : front ∈ d.written *
      (c.written * ((Token.mark .semicolon).word * (step.written * b.written))))
    (hn : (front ++ rest).length ≤ n) :
    forLoop expr stmt n line (front ++ rest) = .ok (.count d c step b line) rest := by
  obtain ⟨fd, hfd, afterDecl, hafterDecl, rfl⟩ := Language.mem_mul.1 hfront
  obtain ⟨fc, hfc, afterCondition, hafterCondition, rfl⟩ := Language.mem_mul.1 hafterDecl
  obtain ⟨semicolonLine, afterSemicolon, hafterSemicolon, rfl⟩ := mem_word_mul.1 hafterCondition
  obtain ⟨fstep, hfstep, fb, hfb, rfl⟩ := Language.mem_mul.1 hafterSemicolon
  simp only [List.append_assoc, List.cons_append] at hn ⊢
  have hn₁ := bound_append hn
  have hn₂ := bound_append hn₁
  have hn₃ : (fstep ++ (fb ++ rest)).length ≤ n := by
    rw [List.length_cons] at hn₂
    omega
  have hn₄ := bound_append hn₃
  have hd' := rereads_variableDecl hexpr d fd
    (fc ++ ⟨.mark .semicolon, semicolonLine⟩ :: (fstep ++ (fb ++ rest))) hd hfd trivial (by omega)
  have hc' := hexpr c fc (⟨.mark .semicolon, semicolonLine⟩ :: (fstep ++ (fb ++ rest))) hc hfc
    (ahead_cons.2 id) (by omega)
  have hstep' := hexpr step fstep _ hstep hfstep (exprEnds_block hfb rest) (by omega)
  have hb' := rereads_block hstmt b fb rest hb hfb trivial (by omega)
  rw [forLoop, bind_ok hd', bind_ok hc', bind_ok (expect_self _ _ _ _), bind_ok hstep', bind_ok hb']
  rfl

/-! ## Statements -/

omit hexpr hstmt in
/-- A token that can begin an expression begins an expression statement, unless a colon shows it to be the name
in a declaration. -/
theorem statementPart_of_opens {l : Lexeme} (hl : l.token.OpensExpr)
    (hts : Ahead (· ≠ .mark .colon) ts) :
    statementPart expr stmt n (l :: ts) = expressionStatement expr l.line (l :: ts) := by
  rcases l with ⟨t, line⟩
  cases t with
  | identifier x =>
    cases ts with
    | nil => rfl
    | cons l' ts =>
      rcases l' with ⟨t', line'⟩
      have ht' : t' ≠ .mark .colon := ahead_cons.1 hts
      cases t' with
      | mark m =>
        cases m with
        | colon => exact absurd rfl ht'
        | _ => rfl
      | _ => rfl
  | keyword k =>
    cases k with
    | cast_ => rfl
    | _ => cases hl
  | mark m =>
    cases m with
    | openParen => rfl
    | _ => cases hl
  | _ => rfl

omit hexpr hstmt in
/-- No colon follows the first token of an expression statement. -/
theorem ahead_of_inExpr {tail : List Lexeme} (htail : ∀ l ∈ tail, l.token.InExpr)
    (semicolonLine : Nat) (rest : List Lexeme) :
    Ahead (· ≠ .mark .colon) (tail ++ ⟨.mark .semicolon, semicolonLine⟩ :: rest) := by
  cases tail with
  | nil => exact ahead_cons.2 nofun
  | cons l tail =>
    refine ahead_cons.2 fun heq => ?_
    have hl := htail l List.mem_cons_self
    rw [heq] at hl
    exact hl

omit hexpr hstmt in
/-- No type begins with `func`. -/
theorem startsWith_type (constant : Bool) (type : ValueType) :
    StartsWith (· ≠ .keyword .func_) (type.written constant) := by
  cases constant with
  | true =>
    intro ls hls
    rw [ValueType.written, if_pos rfl, mem_word_mul] at hls
    obtain ⟨line, tail, -, rfl⟩ := hls
    exact ⟨_, tail, rfl, by simp⟩
  | false =>
    intro ls hls
    rw [ValueType.written, if_neg Bool.false_ne_true, one_mul] at hls
    obtain ⟨line, rfl⟩ := mem_word.1 hls
    exact ⟨_, [], rfl, by simp⟩

theorem statementPart_rereads {s : Statement} (hs : s.Shaped) {front : List Lexeme}
    (hfront : front ∈ s.written) (hrest : TakesBranches s → NoBranch rest)
    (hn : (front ++ rest).length ≤ n + 1) :
    statementPart expr stmt n (front ++ rest) = .ok s rest := by
  cases s with
  | var d =>
    rw [Statement.Shaped] at hs
    simp only [Statement.written, VarDecl.written, mul_assoc, mem_on_mul, mem_word_mul] at hfront
    obtain ⟨_, ⟨colonLine, afterColon, hafterColon, rfl⟩, rfl⟩ := hfront
    obtain ⟨ftype, hftype, afterType, hafterType, rfl⟩ := Language.mem_mul.1 hafterColon
    obtain ⟨finitial, hfinitial, semicolon, hsemicolon, rfl⟩ := Language.mem_mul.1 hafterType
    obtain ⟨semicolonLine, rfl⟩ := mem_word.1 hsemicolon
    simp only [List.cons_append, List.append_assoc, List.nil_append] at hn ⊢
    have hd := variableRest_rereads hexpr semicolonLine rest hs hftype hfinitial
      (by simp at hn ⊢; omega)
    rw [statementPart_variable ((startsWith_type _ _).ahead hftype _), map_ok hd]
  | func f =>
    rcases f with ⟨name, result, params, body, line⟩
    rw [Statement.Shaped] at hs
    rw [Statement.written, Function.written] at hfront
    simp only [mul_assoc] at hfront
    obtain ⟨afterName, hafterName, rfl⟩ := mem_on_mul.1 hfront
    obtain ⟨colonLine, afterColon, hafterColon, rfl⟩ := mem_word_mul.1 hafterName
    obtain ⟨funcLine, tail, htail, rfl⟩ := mem_word_mul.1 hafterColon
    have hf : functionRest stmt n name line (tail ++ rest) =
        .ok ⟨name, result, params, body, line⟩ rest :=
      functionRest_rereads hstmt hs htail (by simp at hn ⊢; omega)
    simp only [List.cons_append]
    rw [statementPart_function, map_ok hf]
  | expr e line =>
    rw [Statement.Shaped] at hs
    rw [Statement.written, Language.mem_iSup] at hfront
    obtain ⟨rfl, hfront⟩ := hfront
    have he := expressionStatement_rereads hexpr hs e.line hfront hn
    obtain ⟨fe, hfe, semicolon, hsemicolon, rfl⟩ := Language.mem_mul.1 hfront
    obtain ⟨semicolonLine, rfl⟩ := mem_word.1 hsemicolon
    obtain ⟨l, tail, rfl, hl⟩ := e.startsWith_written fe hfe
    obtain ⟨t, tail', heq⟩ := e.startsOn_written _ hfe
    obtain ⟨rfl, rfl⟩ := List.cons.inj heq
    have hcolon := ahead_of_inExpr
      (fun l' hl' => e.within_written _ hfe l' (List.mem_cons_of_mem _ hl')) semicolonLine rest
    simp only [List.append_assoc, List.cons_append, List.nil_append] at he ⊢
    exact (statementPart_of_opens hl hcolon).trans he
  | print e es line =>
    rw [Statement.Shaped] at hs
    simp only [Statement.written, Expr.writtenAll_eq_map, mul_assoc, mem_on_mul] at hfront
    obtain ⟨tail, htail, rfl⟩ := hfront
    exact printStatement_rereads hexpr hs.1 hs.2 htail (Nat.le_of_succ_le_succ hn)
  | block b =>
    rw [Statement.Shaped] at hs
    rw [Statement.written] at hfront
    have hb := rereads_block hstmt b front rest hs hfront trivial hn
    obtain ⟨⟨t, line⟩, tail, rfl, ht⟩ := b.startsWith_written front hfront
    obtain rfl : t = .mark .openBrace := ht
    exact map_ok hb
  | cond c b bs line =>
    rw [Statement.Shaped] at hs
    simp only [Statement.written, mul_assoc, mem_on_mul] at hfront
    obtain ⟨tail, htail, rfl⟩ := hfront
    exact conditional_rereads hexpr hstmt hs.1 hs.2.1 hs.2.2 htail (hrest trivial)
      (Nat.le_of_succ_le_succ hn)
  | loop c b line =>
    rw [Statement.Shaped] at hs
    simp only [Statement.written, mul_assoc, mem_on_mul] at hfront
    obtain ⟨tail, htail, rfl⟩ := hfront
    exact whileLoop_rereads hexpr hstmt hs.1 hs.2 htail (Nat.le_of_succ_le_succ hn)
  | count d c step b line =>
    rw [Statement.Shaped] at hs
    simp only [Statement.written, mul_assoc, mem_on_mul] at hfront
    obtain ⟨tail, htail, rfl⟩ := hfront
    exact forLoop_rereads hexpr hstmt hs.1 hs.2.1 hs.2.2.1 hs.2.2.2 htail (Nat.le_of_succ_le_succ hn)
  | return_ value line =>
    rw [Statement.Shaped] at hs
    simp only [Statement.written, mul_assoc, mem_on_mul] at hfront
    obtain ⟨tail, htail, rfl⟩ := hfront
    exact returnStatement_rereads hexpr hs htail (Nat.le_of_succ_le_succ hn)
  | exit kind line =>
    simp only [Statement.written, mem_on_mul, mem_word] at hfront
    obtain ⟨_, ⟨semicolonLine, rfl⟩, rfl⟩ := hfront
    cases kind <;> rfl

end Parts

/-- **Statements are complete.** A shaped statement is read back as it is written, from any tokens after which
no further branch follows. -/
theorem rereads_statement (n : Nat) :
    Rereads n (statement n) Statement.Shaped Statement.written NoBranch := by
  induction n with
  | zero =>
    intro s front rest _ hfront _ hn
    obtain ⟨t, tail, rfl⟩ := s.startsOn_written front hfront
    cases hn
  | succ n ih =>
    intro s front rest hs hfront hrest hn
    exact statementPart_rereads (rereads_expression (n + 1)) ih hs hfront (fun _ => hrest) hn

/-- A statement that takes no further branches is read back whatever follows. -/
theorem statement_rereads {s : Statement} (hs : s.Shaped) {front : List Lexeme}
    (hfront : front ∈ s.written) (hbranches : ¬ TakesBranches s) (hn : (front ++ rest).length ≤ n) :
    statement n (front ++ rest) = .ok s rest := by
  obtain ⟨t, tail, rfl⟩ := s.startsOn_written front hfront
  obtain ⟨n, rfl, -⟩ := bound_cons hn
  exact statementPart_rereads (rereads_expression (n + 1)) (rereads_statement n) hs hfront
    (fun h => absurd h hbranches) hn

/-! ## Programs -/

/-- Statements are read back one after another and joined to those read before, and then comes what follows
them. -/
theorem statements_written_append {ss : List Statement} (hss : Statement.ShapedAll ss) {ls : List Lexeme}
    (hls : ls ∈ Statement.writtenAll ss) (hrest : NoBranch rest) {k : Nat}
    (hk : (ls ++ rest).length ≤ k) (line : Nat) (done : List Statement) (errors : List SyntaxError) :
    ∃ m, rest.length ≤ m ∧
      statements line k done errors (ls ++ rest) =
        statements line m (ss.reverse ++ done) errors rest := by
  induction ss generalizing ls k done with
  | nil =>
    rw [Statement.writtenAll] at hls
    have hnone : ls = [] := hls
    subst hnone
    exact ⟨k, hk, rfl⟩
  | cons s ss ih =>
    rw [Statement.ShapedAll] at hss
    rw [Statement.writtenAll] at hls
    obtain ⟨fs, hfs, fss, hfss, rfl⟩ := Language.mem_mul.1 hls
    rw [List.append_assoc] at hk ⊢
    have hahead : NoBranch (fss ++ rest) := noBranch_writtenAll hfss hrest
    obtain ⟨l, tail, rfl, -⟩ := s.startsWith_written fs hfs
    obtain ⟨k, rfl, hk'⟩ := bound_cons hk
    have hs := rereads_statement (k + 1) s _ (fss ++ rest) hss.1 hfs hahead hk
    obtain ⟨m, hm, hfollowing⟩ := ih hss.2 hfss (bound_append hk') (s :: done)
    refine ⟨m, hm, ?_⟩
    rw [statements_ok hs, hfollowing, List.reverse_cons, List.append_assoc]
    rfl

/-- **Programs are complete.** Shaped statements, written one after another, are read back. -/
theorem parse_written {ss : List Statement} (hss : Statement.ShapedAll ss) {ls : List Lexeme}
    (hls : ls ∈ Statement.writtenAll ss) : parse ls = ⟨ss, []⟩ := by
  obtain ⟨m, -, hread⟩ :=
    statements_written_append hss hls ahead_nil (k := ls.length) (by simp) (lastLine ls) [] []
  rw [List.append_nil] at hread
  rw [parse, hread, List.append_nil]
  cases m <;> exact congrArg (Outcome.mk · []) ss.reverse_reverse

end Scriptling.Grammar
