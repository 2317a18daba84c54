import Scriptling.Proofs.Grammar.Alike.Program

/-!
# Scriptling.Proofs.Grammar.Complete.Program -- programs come back from their tokens

A shaped program comes back from its tokens (`programs_come_back`). Line numbers come back, too, where the tokens
are on the lines of the nodes. On other lines, all but the line numbers does: reading does not depend on lines, so
all nodes and tokens may be thought of as on one line, where the tokens of a program are a way to write it.
-/

set_option autoImplicit false

namespace Scriptling.Grammar

/-- What is a way to write shaped statements once all tokens and nodes are on one line is read back, but for the
lines. -/
theorem parse_sameButLines {ss : List Statement} (hss : Statement.ShapedAll ss) {ls : List Lexeme}
    (hls : ls.map (Lexeme.reline fun _ => 0) ∈
      Statement.writtenAll (Statement.relineAll (fun _ => 0) ss)) :
    (parse ls).errors = [] ∧ Statement.SameButLines (parse ls).statements ss := by
  have hread := parse_written ((Statement.shapedAll_reline _ ss).2 hss) hls
  rw [parse_reline, Outcome.reline] at hread
  obtain ⟨hstatements, herrors⟩ := Outcome.mk.inj hread
  refine ⟨List.map_eq_nil_iff.1 herrors, ?_⟩
  rw [Statement.SameButLines, Statement.relineAll_eq_map]
  exact hstatements

/-- **Programs come back from their tokens.** Shaped statements are read back without an error: as they are, from
every way to write them down; but for line numbers, from every way to write them down on other lines, and so from
their tokens on any lines. -/
theorem programs_come_back {ss : List Statement} (hss : Statement.ShapedAll ss) :
    (∀ ls ∈ Statement.writtenAll ss, parse ls = ⟨ss, []⟩) ∧
      (∀ ls : List Lexeme, ls.map (Lexeme.reline fun _ => 0) ∈
          Statement.writtenAll (Statement.relineAll (fun _ => 0) ss) →
        (parse ls).errors = [] ∧ Statement.SameButLines (parse ls).statements ss) ∧
      ∀ ls : List Lexeme, ls.map Lexeme.token = Statement.tokensAll ss →
        (parse ls).errors = [] ∧ Statement.SameButLines (parse ls).statements ss := by
  refine ⟨fun ls hls => parse_written hss hls, fun ls hls => parse_sameButLines hss hls,
    fun ls hls => parse_sameButLines hss ?_⟩
  have hwrites := Statement.writesAll 0 ss
  rw [Writes, ← hls, List.map_map] at hwrites
  exact hwrites

/-- `x: int = a - b - c; if x < -d { remit; } elif e { }`, whose nodes are on lines that no text would have,
written on two lines. -/
theorem difference_and_branches_come_back :
    let difference : Expr :=
      .binary (.arithmetic .sub) (.binary (.arithmetic .sub) (.name "a" 7) (.name "b" 3) 9)
        (.name "c" 0) 1
    let below : Expr :=
      .binary (.comparison .less) (.name "x" 5) (.unary .negate (.name "d" 8) 2) 6
    let program : List Statement :=
      [.var ⟨"x", .int, false, some difference, 4⟩,
        .cond below ⟨[.exit .remit_ 0], 3⟩ (.elif (.name "e" 1) ⟨[], 2⟩ .done 5) 0]
    let tokens : List Lexeme :=
      [⟨.identifier "x", 1⟩, ⟨.mark .colon, 1⟩, ⟨.typeName .int, 1⟩, ⟨.assign .plain, 1⟩,
        ⟨.identifier "a", 1⟩, ⟨.operator (.arithmetic .sub), 1⟩, ⟨.identifier "b", 1⟩,
        ⟨.operator (.arithmetic .sub), 1⟩, ⟨.identifier "c", 1⟩, ⟨.mark .semicolon, 1⟩,
        ⟨.keyword .if_, 2⟩, ⟨.identifier "x", 2⟩, ⟨.operator (.comparison .less), 2⟩,
        ⟨.operator (.arithmetic .sub), 2⟩, ⟨.identifier "d", 2⟩, ⟨.mark .openBrace, 2⟩,
        ⟨.keyword .remit_, 2⟩, ⟨.mark .semicolon, 2⟩, ⟨.mark .closeBrace, 2⟩, ⟨.keyword .elif_, 2⟩,
        ⟨.identifier "e", 2⟩, ⟨.mark .openBrace, 2⟩, ⟨.mark .closeBrace, 2⟩]
    (parse tokens).errors = [] ∧ Statement.SameButLines (parse tokens).statements program := by
  intro difference below program tokens
  have hshaped : Statement.ShapedAll program := by
    simp [program, difference, below, Statement.ShapedAll, Statement.Shaped, VarDecl.Shaped,
      Block.Shaped, Branches.Shaped, Expr.Shaped, Expr.level, BinaryOperator.tier]
  exact (programs_come_back hshaped).2.2 tokens rfl

end Scriptling.Grammar
