import Scriptling.Grammar.Program
import Scriptling.Proofs.Grammar.Accounts
import Scriptling.Proofs.Syntax.Shape

/-!
# Scriptling.Proofs.Grammar.Soundness -- what is read can be written

Each parser reads shaped trees, from tokens that are a way to write them (`reads_expression`,
`reads_statement`), and each error names the token where its parser has stopped. There is one lemma for
each parser of the grammar, about any parser of whole expressions or statements it is given; the knot is
tied by induction on the bound that the executable parsers count down.
-/

set_option autoImplicit false

namespace Scriptling.Grammar

/-! ## Expressions -/

/-- The operands that a chain takes in are to the right of an operator of the tier, so they bind more
tightly; what has been read so far is the left operand of the next one. -/
theorem accounts_chain {operand : Parser Expr} {k : Nat}
    (hoperand : Reads operand (fun e => e.Shaped ∧ e.level < k) Expr.written) (m : Nat) :
    ∀ (left : Expr) (ts : List Lexeme) (L : Language Lexeme), left.Shaped → left.level ≤ k →
      Accounts ts (L * left.written) (fun e => e.Shaped ∧ e.level ≤ k) (fun e => L * e.written)
        (chain operand k m left ts) := by
  induction m with
  | zero =>
    intro left ts L hleft hlevel
    exact .pure ⟨hleft, hlevel⟩ le_rfl
  | succ m ih =>
    intro left ts L hleft hlevel
    unfold chain
    split
    · rename_i op line ts
      split
      · -- An operator of the tier: what was read becomes its left operand.
        rename_i hop
        apply Accounts.next
        apply (hoperand _ _).bind
        intro right rest hright
        have hshaped : (Expr.binary op left right left.line).Shaped := by
          rw [Expr.Shaped, hop]
          exact ⟨hleft, hright.1, hlevel, hright.2⟩
        apply (ih _ rest L hshaped hop.le).before
        rw [Expr.written, iSup_pos rfl]
        simp only [mul_assoc]
        gcongr
        exact Token.on_le_word _ line
      · exact .ok ⟨hleft, hlevel⟩ le_rfl
    · exact .ok ⟨hleft, hlevel⟩ le_rfl

section Expressions

variable {inner : Parser Expr} (hinner : Reads inner Expr.Shaped Expr.written) (n : Nat)

include hinner

theorem accounts_castRest (line : Nat) (ts : List Lexeme) (L : Language Lexeme) :
    Accounts ts (L * (Token.keyword .cast_).on line) (fun e => e.Shaped ∧ e.level = 0)
      (fun e => L * e.written) (castRest inner line ts) := by
  unfold castRest
  apply (reads_expect _ _ _ _).bind
  intro _ ts _
  apply (reads_typeName false _ _).bind
  intro target ts htarget
  apply (reads_expect _ _ _ _).bind
  intro _ ts _
  apply (reads_expect _ _ _ _).bind
  intro _ ts _
  apply (hinner _ _).bind
  intro operand ts hoperand
  apply (reads_expect _ _ _ _).bind
  intro _ ts _
  refine .pure ⟨?_, rfl⟩ ?_
  · rw [Expr.Shaped]
    exact ⟨htarget rfl, hoperand⟩
  · simp only [Expr.written, mul_assoc, le_refl]

omit hinner in
/-- Where an expression is missing, a literal would do. -/
theorem completable_expr {L : Language Lexeme} {P : Expr → Prop} (line : Nat)
    (hP : P (.literal (.bool true) line)) : Completable L P (fun e => L * e.written) [] := by
  refine completable_nil _ [⟨.bool true, line⟩] hP ?_
  rw [Expr.written]
  exact Token.mem_on _ line

omit hinner in
theorem completable_tight {L : Language Lexeme} :
    Completable L (fun e : Expr => e.Shaped ∧ e.level = 0) (fun e => L * e.written) [] := by
  refine completable_expr 0 ⟨?_, rfl⟩
  rw [Expr.Shaped]
  trivial

theorem reads_primary :
    Reads (primary inner n) (fun e => e.Shaped ∧ e.level = 0) Expr.written := by
  intro ts L
  unfold primary
  split
  · -- A name with an opening parenthesis after it is a call.
    rename_i f line openLine ts
    apply Accounts.next
    apply Accounts.next
    apply (reads_list hinner n _ _).bind
    intro arguments ts harguments
    refine .pure ⟨?_, rfl⟩ ?_
    · rw [Expr.Shaped, Expr.shapedAll_iff]
      exact harguments
    · simp only [Expr.written, Expr.writtenAll_eq_map, mul_assoc]
      gcongr
      exact Token.on_le_word _ openLine
  · -- A name alone.
    rename_i x line ts _
    apply Accounts.next
    refine .ok ⟨?_, rfl⟩ ?_
    · rw [Expr.Shaped]
      trivial
    · rw [Expr.written]
  · -- An expression in parentheses.
    rename_i line ts
    apply Accounts.next
    apply (hinner _ _).bind
    intro e ts he
    apply (reads_expect _ _ _ _).bind
    intro _ ts _
    refine .pure ⟨?_, rfl⟩ ?_
    · rw [Expr.Shaped]
      exact he
    · simp only [Expr.written, mul_assoc, le_refl]
  · -- A cast.
    exact .next (accounts_castRest hinner _ _ L)
  · rename_i l ts _ _ _ _
    split
    · -- A literal.
      rename_i v hv
      have hl : l.token = v.token := Literal.token_of_ofToken? hv
      apply Accounts.next
      refine .ok ⟨?_, rfl⟩ ?_
      · rw [Expr.Shaped]
        trivial
      · rw [Expr.written, hl]
    · exact accounts_unexpected _ _ completable_tight
  · exact accounts_unexpected _ _ completable_tight

theorem reads_unary :
    Reads (unary inner n) (fun e => e.Shaped ∧ e.level = 0) Expr.written := by
  intro ts
  induction ts with
  | nil =>
    intro L
    rw [unary]
    exact reads_primary hinner n [] L
  | cons l ts ih =>
    intro L
    rw [unary]
    split
    · rename_i op hop
      have hl : l.token = op.token := UnaryOperator.token_of_unary? hop
      apply Accounts.next
      have hoperand : Accounts ts (L * l.token.on l.line)
          (fun e => (Expr.unary op e l.line).Shaped ∧ (Expr.unary op e l.line).level = 0)
          (fun e => L * (Expr.unary op e l.line).written) (unary inner n ts) := by
        apply (ih (L * l.token.on l.line)).mono
        · rintro e ⟨he, hlevel⟩
          rw [Expr.Shaped]
          exact ⟨⟨he, hlevel⟩, rfl⟩
        · intro e _
          rw [Expr.written, ← mul_assoc, ← hl]
      cases hr : unary inner n ts with
      | ok e rest =>
        rw [hr] at hoperand
        exact hoperand
      | error e rest =>
        rw [hr] at hoperand
        obtain ⟨⟨front, hts, e', finish, he', hwritten⟩, hnames⟩ := hoperand
        exact ⟨⟨front, hts, .unary op e' l.line, finish, he', hwritten⟩, hnames⟩
    · exact reads_primary hinner n (l :: ts) L

theorem reads_tier (k : Nat) :
    Reads (tier inner n k) (fun e => e.Shaped ∧ e.level ≤ k) Expr.written := by
  induction k with
  | zero =>
    intro ts L
    apply (reads_unary hinner n ts L).mono
    · rintro e ⟨he, hlevel⟩
      exact ⟨he, hlevel.le⟩
    · intro e _
      exact le_rfl
  | succ k ih =>
    have hoperand : Reads (tier inner n k) (fun e => e.Shaped ∧ e.level < k + 1) Expr.written := by
      intro ts L
      apply (ih ts L).mono
      · rintro e ⟨he, hlevel⟩
        exact ⟨he, Nat.lt_succ_of_le hlevel⟩
      · intro e _
        exact le_rfl
    intro ts L
    unfold tier
    apply (hoperand ts L).bind
    rintro left rest ⟨hleft, hlevel⟩
    exact accounts_chain hoperand n left rest L hleft hlevel.le

/-- The tree on the left of an assignment operator is a name, or the error is that of the operator. -/
theorem reads_assignment : Reads (assignment inner n) Expr.Shaped Expr.written := by
  intro ts L
  unfold assignment
  apply (reads_tier hinner n BinaryOperator.loosest ts L).bind
  rintro target ts ⟨htarget, -⟩
  split
  · rename_i op opLine rest
    split
    · -- What was read as an expression was a name, and now it is a target.
      rename_i x line
      apply Accounts.next
      apply (hinner _ _).bind
      intro value rest hvalue
      refine .pure ?_ ?_
      · rw [Expr.Shaped]
        exact hvalue
      · simp only [Expr.written, mul_assoc]
        gcongr
        exact Token.on_le_word _ opLine
    · -- Without the operator, what was read would be an expression.
      exact .error (.invalidTarget op opLine rest) ⟨target, [], htarget, fun ls hls => by simpa⟩
  · exact .ok htarget le_rfl

end Expressions

/-- **Expressions are sound.** What is read as an expression is a shaped one, as it is written. -/
theorem reads_expression (n : Nat) : Reads (expression n) Expr.Shaped Expr.written := by
  induction n with
  | zero =>
    intro ts L
    refine accounts_unexpected _ ts (completable_expr 0 ?_)
    rw [Expr.Shaped]
    trivial
  | succ n ih => exact reads_assignment ih n

/-! ## Declarations -/

section Parts

variable {expr : Parser Expr} (hexpr : Reads expr Expr.Shaped Expr.written)
  {stmt : Parser Statement} (hstmt : Reads stmt Statement.Shaped Statement.written) (n : Nat)
  (line : Nat) (ts : List Lexeme) (L : Language Lexeme)

theorem reads_typeSpecifier :
    Reads typeSpecifier (fun s => s.2 ≠ .void) (fun s => s.2.written s.1) := by
  intro ts L
  unfold typeSpecifier
  apply (reads_accept _ _ _).bind
  intro constant ts _
  apply (reads_typeName false _ _).bind
  intro type ts htype
  refine .pure (htype rfl) ?_
  simp only [ValueType.written, mul_assoc, le_refl]

include hexpr in
theorem reads_initialValue :
    Reads (initialValue expr) (fun i => ∀ e ∈ i, e.Shaped)
      (fun i => i.elim 1 fun e => (Token.assign .plain).word * e.written) := by
  intro ts L
  unfold initialValue
  apply (reads_accept _ _ _).bind
  intro hasInitial ts _
  cases hasInitial with
  | true =>
    apply Accounts.map
    apply (hexpr _ _).mono
    · intro e he e' he'
      cases he'
      exact he
    · intro e _
      simp only [Option.elim, mul_assoc, if_true, le_refl]
  | false =>
    refine .pure ?_ le_rfl
    intro e he
    cases he

include hexpr in
theorem accounts_variableRest (name : String) :
    Accounts ts (L * (Token.identifier name).on line * (Token.mark .colon).word) VarDecl.Shaped
      (fun d => L * d.written) (variableRest expr name line ts) := by
  unfold variableRest
  apply (reads_typeSpecifier _ _).bind
  rintro ⟨constant, type⟩ ts htype
  apply (reads_initialValue hexpr _ _).bind
  intro initial ts hinitial
  apply (reads_expect _ _ _ _).bind
  intro _ ts _
  refine .pure ⟨htype, hinitial⟩ ?_
  simp only [VarDecl.written, mul_assoc, le_refl]

include hexpr in
theorem reads_variableDecl : Reads (variableDecl expr) VarDecl.Shaped VarDecl.written := by
  intro ts L
  unfold variableDecl
  apply (reads_identifier _ _).bind
  rintro ⟨name, line⟩ ts _
  apply (reads_expect _ _ _ _).bind
  intro _ ts _
  exact accounts_variableRest hexpr line ts L name

theorem reads_param : Reads param (fun p => p.type ≠ .void) Param.written := by
  intro ts L
  unfold param
  apply (reads_identifier _ _).bind
  rintro ⟨name, line⟩ ts _
  apply (reads_expect _ _ _ _).bind
  intro _ ts _
  apply (reads_typeSpecifier _ _).bind
  rintro ⟨constant, type⟩ ts htype
  refine .pure htype ?_
  simp only [Param.written, mul_assoc, le_refl]

/-! ## Blocks and functions -/

/-- Where a statement is missing, a closing brace would do. -/
theorem completable_statementsRest :
    Completable L Statement.ShapedAll
      (fun ss => L * (Statement.writtenAll ss * (Token.mark .closeBrace).word)) [] := by
  refine completable_nil [] [⟨.mark .closeBrace, 0⟩] ?_ ?_
  · rw [Statement.ShapedAll]
    trivial
  · rw [Statement.writtenAll, one_mul]
    exact (Token.mark .closeBrace).mem_word 0

include hstmt in
theorem reads_statementsRest :
    Reads (statementsRest stmt n) Statement.ShapedAll
      (fun ss => Statement.writtenAll ss * (Token.mark .closeBrace).word) := by
  induction n with
  | zero =>
    intro ts L
    exact accounts_unexpected _ ts (completable_statementsRest _)
  | succ n ih =>
    intro ts L
    unfold statementsRest
    split
    · exact accounts_unexpected _ [] (completable_statementsRest _)
    · rename_i line ts
      apply Accounts.next
      refine .ok ?_ ?_
      · rw [Statement.ShapedAll]
        trivial
      · simp only [Statement.writtenAll, one_mul]
        gcongr
        exact Token.on_le_word _ line
    · apply (hstmt _ _).bind
      intro s ts hs
      apply (ih _ _).bind
      intro ss ts hss
      refine .pure ?_ ?_
      · rw [Statement.ShapedAll]
        exact ⟨hs, hss⟩
      · simp only [Statement.writtenAll, mul_assoc, le_refl]

include hstmt in
theorem reads_block : Reads (block stmt n) Block.Shaped Block.written := by
  intro ts L
  unfold block
  apply (reads_expect_on _ _ _ _).bind
  intro line ts _
  apply (reads_statementsRest hstmt n _ _).bind
  intro statements ts hstatements
  refine .pure ?_ ?_
  · rw [Block.Shaped]
    exact hstatements
  · simp only [Block.written, mul_assoc, le_refl]

theorem reads_resultType : Reads resultType (fun _ => True) ValueType.writtenResult := by
  intro ts L
  unfold resultType
  apply (reads_accept _ _ _).bind
  intro hasResult ts _
  cases hasResult with
  | true =>
    apply (reads_typeName true _ _).mono
    · intro type _
      trivial
    · intro type _
      simp only [if_true, mul_assoc]
      gcongr
      exact type.word_le_writtenResult
  | false =>
    refine .pure trivial ?_
    simp only [Bool.false_eq_true, if_false]
    gcongr
    exact ValueType.one_le_writtenResult

include hstmt in
theorem accounts_functionRest (name : String) :
    Accounts ts
      (L * (Token.identifier name).on line * (Token.mark .colon).word * (Token.keyword .func_).word)
      Function.Shaped (fun f => L * f.written) (functionRest stmt n name line ts) := by
  unfold functionRest
  apply (reads_expect _ _ _ _).bind
  intro _ ts _
  apply (reads_list reads_param n _ _).bind
  intro params ts hparams
  apply (reads_resultType _ _).bind
  intro result ts _
  apply (reads_block hstmt n _ _).bind
  intro body ts hbody
  refine .pure ?_ ?_
  · rw [Function.Shaped]
    exact ⟨hparams, hbody⟩
  · simp only [Function.written, mul_assoc, le_refl]

include hexpr hstmt in
theorem reads_named : Reads (named expr stmt n) Statement.Shaped Statement.written := by
  intro ts L
  unfold named
  apply (reads_identifier _ _).bind
  rintro ⟨name, line⟩ ts _
  apply (reads_expect _ _ _ _).bind
  intro _ ts _
  apply (reads_accept _ _ _).bind
  intro isFunction ts _
  cases isFunction with
  | true =>
    apply Accounts.map
    apply (accounts_functionRest hstmt n line ts L name).mono
    · intro f hf
      rw [Statement.Shaped]
      exact hf
    · intro f _
      rw [Statement.written]
  | false =>
    simp only [mul_one, Bool.false_eq_true, if_false]
    apply Accounts.map
    apply (accounts_variableRest hexpr line ts L name).mono
    · intro d hd
      rw [Statement.Shaped]
      exact hd
    · intro d _
      rw [Statement.written]

/-! ## Simple statements -/

include hexpr in
theorem reads_printRest :
    Reads (printRest expr n) (fun es => ∀ e ∈ es, e.Shaped)
      (fun es => following (es.map Expr.written)) := by
  induction n with
  | zero =>
    intro ts L
    exact .pure (List.forall_mem_nil _) (mul_one L).ge
  | succ n ih =>
    intro ts L
    unfold printRest
    split
    · rename_i line ts
      apply Accounts.next
      apply (hexpr _ _).bind
      intro e ts he
      apply (ih _ _).bind
      intro es ts hes
      refine .pure (List.forall_mem_cons.2 ⟨he, hes⟩) ?_
      simp only [List.map_cons, following, mul_assoc]
      gcongr
      exact Token.on_le_word _ line
    · exact .ok (List.forall_mem_nil _) (mul_one L).ge

include hexpr in
theorem accounts_printStatement :
    Accounts ts (L * (Token.keyword .print_).on line) Statement.Shaped (fun s => L * s.written)
      (printStatement expr n line ts) := by
  unfold printStatement
  apply (hexpr _ _).bind
  intro first ts hfirst
  apply (reads_printRest hexpr n _ _).bind
  intro rest ts hrest
  apply (reads_expect _ _ _ _).bind
  intro _ ts _
  refine .pure ?_ ?_
  · rw [Statement.Shaped]
    exact ⟨hfirst, hrest⟩
  · simp only [Statement.written, Expr.writtenAll_eq_map, mul_assoc, le_refl]

include hexpr in
theorem accounts_returnStatement :
    Accounts ts (L * (Token.keyword .return_).on line) Statement.Shaped (fun s => L * s.written)
      (returnStatement expr line ts) := by
  unfold returnStatement
  split
  · rename_i semicolonLine ts
    apply Accounts.next
    refine .ok ?_ ?_
    · rw [Statement.Shaped]
      intro e he
      cases he
    · simp only [Statement.written, Option.elim, mul_assoc, one_mul]
      gcongr
      exact Token.on_le_word _ semicolonLine
  · apply (hexpr _ _).bind
    intro e ts he
    apply (reads_expect _ _ _ _).bind
    intro _ ts _
    refine .pure ?_ ?_
    · rw [Statement.Shaped]
      intro e' he'
      cases he'
      exact he
    · simp only [Statement.written, Option.elim, mul_assoc, le_refl]

theorem accounts_exitStatement (kind : Exit) :
    Accounts ts (L * (Token.keyword kind.keyword).on line) Statement.Shaped
      (fun s => L * s.written) (exitStatement kind line ts) := by
  unfold exitStatement
  apply (reads_expect _ _ _ _).bind
  intro _ ts _
  refine .pure ?_ ?_
  · rw [Statement.Shaped]
    trivial
  · simp only [Statement.written, mul_assoc, le_refl]

include hexpr in
/-- An expression has the line of the token that it is read from first. -/
theorem accounts_expr_line (l : Lexeme) :
    Accounts (l :: ts) L (fun e => e.Shaped ∧ e.line = l.line) (fun e => L * e.written)
      (expr (l :: ts)) := by
  have hread := hexpr (l :: ts) L
  cases hr : expr (l :: ts) with
  | ok e rest =>
    rw [hr] at hread
    obtain ⟨he, hwritten⟩ := hread
    obtain ⟨-, front, hfront, hts⟩ := hexpr.of_ok hr
    obtain ⟨t, ls, rfl⟩ := e.startsOn_written front hfront
    rw [List.cons_append, List.cons.injEq] at hts
    refine ⟨⟨he, ?_⟩, hwritten⟩
    rw [hts.1]
  | error e rest =>
    rw [hr] at hread
    refine ⟨?_, hread.2⟩
    obtain ⟨front, e', finish, hts, he', hfront⟩ := hexpr.completable hr
    refine ⟨front, hts, ?_⟩
    cases front with
    | nil =>
      refine completable_expr l.line ⟨?_, rfl⟩
      rw [Expr.Shaped]
      trivial
    | cons l' front =>
      -- Something has been read, so the line is given already.
      obtain ⟨t, ls, hline⟩ := e'.startsOn_written _ hfront
      rw [List.cons_append, List.cons.injEq] at hts hline
      refine ⟨e', finish, ⟨he', ?_⟩, fun ls hls => ?_⟩
      · rw [hts.1, hline.1]
      · rw [List.append_assoc]
        exact Language.append_mem_mul hls hfront

include hexpr in
theorem accounts_expressionStatement (l : Lexeme) :
    Accounts (l :: ts) L Statement.Shaped (fun s => L * s.written)
      (expressionStatement expr l.line (l :: ts)) := by
  unfold expressionStatement
  apply (accounts_expr_line hexpr ts L l).bind
  rintro e ts ⟨he, hline⟩
  apply (reads_expect _ _ _ _).bind
  intro _ ts _
  refine .pure ?_ ?_
  · rw [Statement.Shaped]
    exact he
  · rw [Statement.written, iSup_pos hline.symm, mul_assoc]

/-! ## Conditionals and loops -/

include hexpr hstmt

theorem reads_branches (k : Nat) :
    Reads (branches expr stmt n k) Branches.Shaped Branches.written := by
  induction k with
  | zero =>
    intro ts L
    refine .pure ?_ ?_
    · rw [Branches.Shaped]
      trivial
    · rw [Branches.written, mul_one]
  | succ k ih =>
    intro ts L
    unfold branches
    split
    · -- `elif`, and the branches after it.
      rename_i line ts
      apply Accounts.next
      apply (hexpr _ _).bind
      intro condition ts hcondition
      apply (reads_block hstmt n _ _).bind
      intro body ts hbody
      apply (ih _ _).bind
      intro rest ts hrest
      refine .pure ?_ ?_
      · rw [Branches.Shaped]
        exact ⟨hcondition, hbody, hrest⟩
      · simp only [Branches.written, mul_assoc, le_refl]
    · -- `else`, after which there are no branches.
      rename_i line ts
      apply Accounts.next
      apply (reads_block hstmt n _ _).bind
      intro body ts hbody
      refine .pure ?_ ?_
      · rw [Branches.Shaped]
        exact hbody
      · simp only [Branches.written, mul_assoc, le_refl]
    · refine .ok ?_ ?_
      · rw [Branches.Shaped]
        trivial
      · rw [Branches.written, mul_one]

theorem accounts_conditional :
    Accounts ts (L * (Token.keyword .if_).on line) Statement.Shaped (fun s => L * s.written)
      (conditional expr stmt n line ts) := by
  unfold conditional
  apply (hexpr _ _).bind
  intro condition ts hcondition
  apply (reads_block hstmt n _ _).bind
  intro body ts hbody
  apply (reads_branches hexpr hstmt n n _ _).bind
  intro rest ts hrest
  refine .pure ?_ ?_
  · rw [Statement.Shaped]
    exact ⟨hcondition, hbody, hrest⟩
  · simp only [Statement.written, mul_assoc, le_refl]

theorem accounts_whileLoop :
    Accounts ts (L * (Token.keyword .while_).on line) Statement.Shaped (fun s => L * s.written)
      (whileLoop expr stmt n line ts) := by
  unfold whileLoop
  apply (hexpr _ _).bind
  intro condition ts hcondition
  apply (reads_block hstmt n _ _).bind
  intro body ts hbody
  refine .pure ?_ ?_
  · rw [Statement.Shaped]
    exact ⟨hcondition, hbody⟩
  · simp only [Statement.written, mul_assoc, le_refl]

theorem accounts_forLoop :
    Accounts ts (L * (Token.keyword .for_).on line) Statement.Shaped (fun s => L * s.written)
      (forLoop expr stmt n line ts) := by
  unfold forLoop
  apply (reads_variableDecl hexpr _ _).bind
  intro decl ts hdecl
  apply (hexpr _ _).bind
  intro condition ts hcondition
  apply (reads_expect _ _ _ _).bind
  intro _ ts _
  apply (hexpr _ _).bind
  intro step ts hstep
  apply (reads_block hstmt n _ _).bind
  intro body ts hbody
  refine .pure ?_ ?_
  · rw [Statement.Shaped]
    exact ⟨hdecl, hcondition, hstep, hbody⟩
  · simp only [Statement.written, mul_assoc, le_refl]

/-! ## Statements -/

omit hexpr hstmt in
/-- Where a statement is missing, an exit would do. -/
theorem completable_statement :
    Completable L Statement.Shaped (fun s => L * s.written) [] := by
  refine completable_nil (.exit .break_ 0) ([⟨.keyword .break_, 0⟩] ++ [⟨.mark .semicolon, 0⟩]) ?_ ?_
  · rw [Statement.Shaped]
    trivial
  · rw [Statement.written]
    exact Language.append_mem_mul (Token.mem_on _ 0) ((Token.mark .semicolon).mem_word 0)

theorem reads_statementPart :
    Reads (statementPart expr stmt n) Statement.Shaped Statement.written := by
  intro ts L
  unfold statementPart
  split
  · exact accounts_unexpected _ [] (completable_statement _)
  · -- A name with a colon after it; `named` reads both again.
    exact reads_named hexpr hstmt n _ L
  · exact .next (accounts_printStatement hexpr n _ _ L)
  · exact .next (accounts_conditional hexpr hstmt n _ _ L)
  · -- `elif` and `else` stay in place, for recovery to drop.
    exact .error (.danglingElif _ _) (completable_statement _)
  · exact .error (.danglingElse _ _) (completable_statement _)
  · exact .next (accounts_whileLoop hexpr hstmt n _ _ L)
  · exact .next (accounts_forLoop hexpr hstmt n _ _ L)
  · exact .next (accounts_returnStatement hexpr _ _ L)
  · exact .next (accounts_exitStatement _ _ L .break_)
  · exact .next (accounts_exitStatement _ _ L .remit_)
  · apply Accounts.map
    apply (reads_block hstmt n _ _).mono
    · intro b hb
      rw [Statement.Shaped]
      exact hb
    · intro b _
      rw [Statement.written]
  · exact accounts_expressionStatement hexpr _ L _

end Parts

/-- **Statements are sound.** What is read as a statement is a shaped one, as it is written. -/
theorem reads_statement (n : Nat) : Reads (statement n) Statement.Shaped Statement.written := by
  induction n with
  | zero =>
    intro ts L
    exact accounts_unexpected _ ts (completable_statement _)
  | succ n ih => exact reads_statementPart (reads_expression (n + 1)) ih n

end Scriptling.Grammar
