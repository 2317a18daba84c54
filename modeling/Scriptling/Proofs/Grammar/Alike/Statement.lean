import Scriptling.Proofs.Grammar.Alike.Expression
import Scriptling.Proofs.Grammar.Complete.Statement

/-!
# Scriptling.Proofs.Grammar.Alike.Statement -- statements are read alike

As for expressions, one lemma for each parser of the grammar, and the induction on the bound at the end
(`alike_statement`).

A statement that begins with a name is the one case in which a parser looks at two tokens: a colon after the
name announces a declaration. Without the colon the name is taken as the beginning of an expression, so the
second token, too, is one that is taken or one that the parser stops at.
-/

set_option autoImplicit false

namespace Scriptling.Grammar

variable {f : Nat → Nat} {d k n : Nat}

/-! ## Declarations -/

theorem alike_typeSpecifier : Alike f d n id typeSpecifier typeSpecifier :=
  (alike_accept _).bind fun _ => (alike_typeName _).bind fun _ => alike_pure _ _ rfl

theorem alike_param : Alike f d n (Param.reline f) param param := by
  refine alike_identifier.bind ?_
  rintro ⟨name, line⟩
  refine (alike_expect _ _).bind fun _ => alike_typeSpecifier.bind ?_
  rintro ⟨constant, type⟩
  exact alike_pure _ _ rfl

theorem alike_resultType : Alike f d n id resultType resultType := by
  refine (alike_accept _).bind fun hasResult => ?_
  cases hasResult with
  | true => exact alike_typeName true
  | false => exact alike_pure _ _ rfl

section Parts

variable {expr expr' : Parser Expr} {stmt stmt' : Parser Statement}

section Variables

variable (hexpr : Alike f d n (Expr.reline f) expr expr')

include hexpr

theorem alike_initialValue :
    Alike f d n (Option.map (Expr.reline f)) (initialValue expr) (initialValue expr') := by
  refine (alike_accept _).bind fun hasInitial => ?_
  cases hasInitial with
  | true => exact hexpr.map fun _ => rfl
  | false => exact alike_pure _ _ rfl

theorem alike_variableRest (name : String) (line : Nat) :
    Alike f d n (VarDecl.reline f) (variableRest expr name line)
      (variableRest expr' name (f line)) := by
  refine alike_typeSpecifier.bind ?_
  rintro ⟨constant, type⟩
  exact (alike_initialValue hexpr).bind fun _ => (alike_expect _ _).bind fun _ => alike_pure _ _ rfl

theorem alike_variableDecl :
    Alike f d n (VarDecl.reline f) (variableDecl expr) (variableDecl expr') := by
  refine alike_identifier.bind ?_
  rintro ⟨name, line⟩
  exact (alike_expect _ _).bind fun _ => alike_variableRest hexpr name line

/-! ## Simple statements -/

theorem alike_printRest (hk : k ≤ n) :
    Alike f d k (List.map (Expr.reline f)) (printRest expr k) (printRest expr' (d + k)) := by
  induction k with
  | zero => exact alike_zero rfl (by cases d <;> rfl)
  | succ k ih =>
    intro ts hts
    cases ts with
    | nil => exact .nil rfl rfl
    | cons l ts =>
      rcases l with ⟨t, line⟩
      cases t with
      | mark m =>
        cases m with
        | comma =>
          have hrest : Alike f d k (List.map (Expr.reline f))
              (do let e ← expr; let es ← printRest expr k; pure (e :: es))
              (do let e ← expr'; let es ← printRest expr' (d + k); pure (e :: es)) :=
            (hexpr.le (Nat.le_of_succ_le hk)).bind fun e => (ih (Nat.le_of_succ_le hk)).bind fun es =>
              alike_pure _ _ rfl
          exact (hrest ts (Nat.le_of_succ_le_succ hts)).next fun _ => rfl
        | _ => exact .stop rfl fun _ => rfl
      | _ => exact .stop rfl fun _ => rfl

theorem alike_printStatement (line : Nat) :
    Alike f d n (Statement.reline f) (printStatement expr n line)
      (printStatement expr' (d + n) (f line)) :=
  hexpr.bind fun _ => (alike_printRest hexpr le_rfl).bind fun _ => (alike_expect _ _).bind fun _ =>
    alike_pure _ _ rfl

/-- The token after `return` decides whether there is a value, and it is the same in both. -/
theorem alike_returnStatement (line : Nat) :
    Alike f d n (Statement.reline f) (returnStatement expr line)
      (returnStatement expr' (f line)) := by
  intro ts hts
  rcases ahead_or (.mark .semicolon) ts with hahead | ⟨semicolonLine, rest, rfl⟩
  · have hvalue : Alike f d n (Statement.reline f)
        (do
          let e ← expr
          let _ ← expect (.mark .semicolon) .semicolonAfterReturn
          pure (.return_ (some e) line))
        (do
          let e ← expr'
          let _ ← expect (.mark .semicolon) .semicolonAfterReturn
          pure (.return_ (some e) (f line))) :=
      hexpr.bind fun _ => (alike_expect _ _).bind fun _ => alike_pure _ _ rfl
    rw [returnStatement_of_ahead hahead]
    exact (hvalue ts hts).congr fun ts' hts' => returnStatement_of_ahead (hts'.ahead hahead)
  · exact .take fun _ => rfl

omit hexpr in
theorem alike_exitStatement (kind : Exit) (line : Nat) :
    Alike f d n (Statement.reline f) (exitStatement kind line) (exitStatement kind (f line)) :=
  (alike_expect _ _).bind fun _ => alike_pure _ _ rfl

theorem alike_expressionStatement (line : Nat) :
    Alike f d n (Statement.reline f) (expressionStatement expr line)
      (expressionStatement expr' (f line)) :=
  hexpr.bind fun _ => (alike_expect _ _).bind fun _ => alike_pure _ _ rfl

end Variables

/-! ## Blocks and functions -/

section Blocks

variable (hstmt : Alike f d n (Statement.reline f) stmt stmt') (hprogress : Progresses stmt)

include hstmt hprogress

theorem alike_statementsRest (hk : k ≤ n) :
    Alike f d k (Statement.relineAll f) (statementsRest stmt k) (statementsRest stmt' (d + k)) := by
  induction k with
  | zero => exact alike_zero rfl (by cases d <;> rfl)
  | succ k ih =>
    intro ts hts
    rcases ahead_or (.mark .closeBrace) ts with hahead | ⟨line, rest, rfl⟩
    · cases ts with
      | nil => exact .nil rfl rfl
      | cons l ts =>
        have hl : l.token ≠ .mark .closeBrace := ahead_cons.1 hahead
        have hrest : Alike f d (k + 1) (Statement.relineAll f)
            (do let s ← stmt; let ss ← statementsRest stmt k; pure (s :: ss))
            (do let s ← stmt'; let ss ← statementsRest stmt' (d + k); pure (s :: ss)) :=
          (hstmt.le hk).bindNext hprogress fun s => (ih (Nat.le_of_succ_le hk)).bind fun ss =>
            alike_pure _ _ rfl
        rw [statementsRest_of_ne hl]
        exact (hrest _ hts).congrNext fun _ => statementsRest_of_ne hl
    · exact .take fun _ => rfl

/-- The brace is taken before the statements, so that for these a bound less by one suffices. -/
theorem alike_block :
    Alike f d (n + 1) (Block.reline f) (block stmt n) (block stmt' (d + n)) := by
  have hopen : Progresses (expect (.mark .openBrace) .openBrace) :=
    (reads_expect_on _ _).progresses fun line _ => (startsOn_on _ line).ne_nil
  exact (alike_expect _ _).bindNext hopen fun _ =>
    (alike_statementsRest hstmt hprogress le_rfl).bind fun _ => alike_pure _ _ rfl

theorem alike_functionRest (name : String) (line : Nat) :
    Alike f d n (Function.reline f) (functionRest stmt n name line)
      (functionRest stmt' (d + n) name (f line)) :=
  (alike_expect _ _).bind fun _ => (alike_list alike_param).bind fun _ =>
    alike_resultType.bind fun _ => ((alike_block hstmt hprogress).le (Nat.le_succ n)).bind fun _ =>
      alike_pure _ _ rfl

/-! ## Conditionals and loops -/

variable (hexpr : Alike f d n (Expr.reline f) expr expr')

include hexpr

theorem alike_branches (hk : k ≤ n) :
    Alike f d k (Branches.reline f) (branches expr stmt n k)
      (branches expr' stmt' (d + n) (d + k)) := by
  induction k with
  | zero => exact alike_zero rfl (branches_done ahead_nil d)
  | succ k ih =>
    intro ts hts
    cases ts with
    | nil => exact .nil rfl rfl
    | cons l ts =>
      rcases l with ⟨t, line⟩
      have hlength : ts.length ≤ k := Nat.le_of_succ_le_succ hts
      have hblock := (alike_block hstmt hprogress).le (Nat.le_of_succ_le (Nat.le_succ_of_le hk))
      cases t with
      | keyword w =>
        cases w with
        | elif_ =>
          have helif : Alike f d k (Branches.reline f)
              (do
                let condition ← expr
                let body ← block stmt n
                let rest ← branches expr stmt n k
                pure (.elif condition body rest line))
              (do
                let condition ← expr'
                let body ← block stmt' (d + n)
                let rest ← branches expr' stmt' (d + n) (d + k)
                pure (.elif condition body rest (f line))) :=
            (hexpr.le (Nat.le_of_succ_le hk)).bind fun _ => hblock.bind fun _ =>
              (ih (Nat.le_of_succ_le hk)).bind fun _ => alike_pure _ _ rfl
          exact (helif ts hlength).next fun _ => rfl
        | else_ =>
          have helse : Alike f d k (Branches.reline f)
              (do let body ← block stmt n; pure (.otherwise body line))
              (do let body ← block stmt' (d + n); pure (.otherwise body (f line))) :=
            hblock.bind fun _ => alike_pure _ _ rfl
          exact (helse ts hlength).next fun _ => rfl
        | _ => exact .stop rfl fun _ => rfl
      | _ => exact .stop rfl fun _ => rfl

theorem alike_conditional (line : Nat) :
    Alike f d n (Statement.reline f) (conditional expr stmt n line)
      (conditional expr' stmt' (d + n) (f line)) :=
  hexpr.bind fun _ => ((alike_block hstmt hprogress).le (Nat.le_succ n)).bind fun _ =>
    (alike_branches hstmt hprogress hexpr le_rfl).bind fun _ => alike_pure _ _ rfl

theorem alike_whileLoop (line : Nat) :
    Alike f d n (Statement.reline f) (whileLoop expr stmt n line)
      (whileLoop expr' stmt' (d + n) (f line)) :=
  hexpr.bind fun _ => ((alike_block hstmt hprogress).le (Nat.le_succ n)).bind fun _ =>
    alike_pure _ _ rfl

theorem alike_forLoop (line : Nat) :
    Alike f d n (Statement.reline f) (forLoop expr stmt n line)
      (forLoop expr' stmt' (d + n) (f line)) :=
  (alike_variableDecl hexpr).bind fun _ => hexpr.bind fun _ => (alike_expect _ _).bind fun _ =>
    hexpr.bind fun _ => ((alike_block hstmt hprogress).le (Nat.le_succ n)).bind fun _ =>
      alike_pure _ _ rfl

end Blocks

/-! ## Statements -/

section Statements

variable (hexpr : Alike f d (n + 1) (Expr.reline f) expr expr')
  (hname : ∀ x line, Alike f d n (Expr.reline f) (afterName x line expr) (afterName x (f line) expr'))
  (hstmt : Alike f d n (Statement.reline f) stmt stmt') (hprogress : Progresses stmt)

include hexpr hname hstmt hprogress

/-- What follows a name: a colon and a declaration, or the rest of an expression. -/
theorem alike_statementPart_name (x : String) (line : Nat) :
    Alike f d n (Statement.reline f) (afterName x line (statementPart expr stmt n))
      (afterName x (f line) (statementPart expr' stmt' (d + n))) := by
  intro ts hts
  rcases ahead_or (.mark .colon) ts with hahead | ⟨colonLine, rest, rfl⟩
  · have hrest : Alike f d n (Statement.reline f) (afterName x line (expressionStatement expr line))
        (afterName x (f line) (expressionStatement expr' (f line))) :=
      (hname x line).bind fun _ => (alike_expect _ _).bind fun _ => alike_pure _ _ rfl
    have hopens : (Token.identifier x).OpensExpr := trivial
    rw [afterName, statementPart_of_opens hopens hahead]
    exact (hrest ts hts).congr fun ts' hts' => statementPart_of_opens hopens (hts'.ahead hahead)
  · have hrest : Alike f d n (Statement.reline f)
        (do
          if ← accept (.keyword .func_) then .func <$> functionRest stmt n x line
          else .var <$> variableRest expr x line)
        (do
          if ← accept (.keyword .func_) then .func <$> functionRest stmt' (d + n) x (f line)
          else .var <$> variableRest expr' x (f line)) := by
      refine (alike_accept _).bind fun isFunction => ?_
      cases isFunction with
      | true => exact (alike_functionRest hstmt hprogress x line).map fun _ => rfl
      | false => exact (alike_variableRest (hexpr.le (Nat.le_succ n)) x line).map fun _ => rfl
    exact ((hrest rest (Nat.le_of_succ_le hts)).next fun _ => rfl).le (Nat.le_succ _)

/-- The first token decides how a statement is read, and it is the same in both. -/
theorem alike_statementPart :
    Alike f d (n + 1) (Statement.reline f) (statementPart expr stmt n)
      (statementPart expr' stmt' (d + n)) := by
  intro ts hts
  cases ts with
  | nil => exact .nil rfl rfl
  | cons l ts =>
    rcases l with ⟨t, line⟩
    have hlength : ts.length ≤ n := Nat.le_of_succ_le_succ hts
    have hexpr' := hexpr.le (Nat.le_succ n)
    have hother := alike_expressionStatement hexpr line (⟨t, line⟩ :: ts) hts
    cases t with
    | identifier x =>
      exact (alike_statementPart_name hexpr hname hstmt hprogress x line ts hlength).next fun _ => rfl
    | keyword w =>
      cases w with
      | print_ => exact (alike_printStatement hexpr' line ts hlength).next fun _ => rfl
      | if_ => exact (alike_conditional hstmt hprogress hexpr' line ts hlength).next fun _ => rfl
      | elif_ | else_ => exact .stop rfl fun _ => rfl
      | while_ => exact (alike_whileLoop hstmt hprogress hexpr' line ts hlength).next fun _ => rfl
      | for_ => exact (alike_forLoop hstmt hprogress hexpr' line ts hlength).next fun _ => rfl
      | return_ => exact (alike_returnStatement hexpr' line ts hlength).next fun _ => rfl
      | break_ => exact (alike_exitStatement .break_ line ts hlength).next fun _ => rfl
      | remit_ => exact (alike_exitStatement .remit_ line ts hlength).next fun _ => rfl
      | _ => exact hother.congrNext fun _ => rfl
    | mark m =>
      cases m with
      | openBrace =>
        have hblock := (alike_block hstmt hprogress).map (u := Statement.block)
          (v := Statement.block) (h := Statement.reline f) (fun _ => rfl) _ hts
        exact hblock.congrNext fun _ => rfl
      | _ => exact hother.congrNext fun _ => rfl
    | _ => exact hother.congrNext fun _ => rfl

end Statements

end Parts

/-- Without tokens there is no statement, whatever the bound. -/
theorem statement_nil (n : Nat) : statement n [] = unexpected .declaration [] := by
  cases n <;> rfl

/-- A statement that is read takes a token. -/
theorem statement_progresses (n : Nat) : Progresses (statement n) :=
  (reads_statement n).progresses fun s _ => s.startsOn_written.ne_nil

/-- **Statements are read alike** where the tokens begin alike, whatever the lines and the bound. -/
theorem alike_statement (n : Nat) :
    Alike f d n (Statement.reline f) (statement n) (statement (d + n)) := by
  induction n with
  | zero => exact alike_zero rfl (statement_nil d)
  | succ n ih =>
    exact alike_statementPart (alike_expression (n + 1))
      (fun x line => alike_expression_name x line n) ih (statement_progresses n)

/-- The bound does not matter to the reading of a statement, if it suffices for the tokens. -/
theorem statement_bound {ts : List Lexeme} (hts : ts.length ≤ n) (d : Nat) :
    statement (d + n) ts = statement n ts := by
  obtain ⟨front, hfront, hread⟩ := alike_statement (f := id) (d := d) n ts hts
  have hagain := hread (Reading.left (statement n ts)) (sameNext_id _)
  rw [Lexeme.reline_id, List.map_id, ← hfront] at hagain
  rw [hagain (by omega)]
  cases statement n ts with
  | ok s rest => exact congrArg (EStateM.Result.ok · rest) s.reline_id
  | error e rest => exact congrArg (EStateM.Result.error · rest) e.reline_id

/-- Two bounds that suffice lead to the same reading. -/
theorem statement_eq {m : Nat} {ts : List Lexeme} (hn : ts.length ≤ n) (hm : ts.length ≤ m) :
    statement n ts = statement m ts := by
  rw [← statement_bound hn m, Nat.add_comm, statement_bound hm]

end Scriptling.Grammar
