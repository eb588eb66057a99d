import Lox.Syntax.Program

/-!
# Desugared loops

What desugaring makes of a `for` loop, and that it is the last that the parser does.
-/

namespace Lox

/-- The `while` loop that stands for a `for` loop:
`{ initializer; while (condition) { body; increment; } }`. -/
def ForClauses.whileLoop (clauses : ForClauses) (body : Stmt) : Stmt :=
  .block (clauses.initializer.toList ++
    [.loop (clauses.condition.getD (.literal (.boolean true))) none
      (match clauses.increment with
      | none => body
      | some step => .block [body, .expression step])])

/-- A `for` loop is desugared to a `while` loop, and its parts are desugared. -/
theorem ForClauses.desugar_statement (clauses : ForClauses) (body : Stmt) :
    (clauses.statement body).desugar =
      { clauses with initializer := clauses.initializer.map Stmt.desugar }.whileLoop
        body.desugar := by
  obtain ⟨initializer, condition, step⟩ := clauses
  cases initializer <;> cases step <;> rfl

/-- Statements are desugared one by one. -/
theorem Stmt.desugarAll_eq_map (ss : List Stmt) : desugarAll ss = ss.map desugar := by
  induction ss with
  | nil => rfl
  | cons s rest ih => rw [desugarAll, ih, List.map_cons]

/-- The parser desugars the statements that it has read one by one, and reports what it has found
wrong with the tokens before. -/
theorem Program.parse_eq (tokens : List Token) :
    Program.parse tokens =
      ((Program.parseLoops tokens).1.map Stmt.desugar, (Program.parseLoops tokens).2) := by
  change (Program.desugar (Program.parseLoops tokens).1, (Program.parseLoops tokens).2) = _
  rw [Program.desugar, Stmt.desugarAll_eq_map]

end Lox
