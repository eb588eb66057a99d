import Lox.Syntax.Operator
import Lox.Token.Basic

/-!
# Syntax trees

Expressions, statements and programs. A `for` loop is a block that holds its initializer and a loop
with a step. `Stmt.desugar` does without steps, which become the last statements of loop bodies, so
that the loops of a desugared program are `while` loops.
-/

namespace Lox

/-- A literal in an expression. -/
inductive Atom where
  | number (x : Float)
  | boolean (b : Bool)
  | nil
  | string (s : String)
deriving DecidableEq

/-- An expression. Tokens are kept where evaluation can fail or needs a name. -/
inductive Expr where
  | literal (atom : Atom)
  | group (inner : Expr)
  | ident (name : Token)
  | assign (name : Token) (value : Expr)
  | unary (op : PrefixOp) (token : Token) (operand : Expr)
  | binary (op : BinaryOp) (token : Token) (left right : Expr)
  | logical (op : LogicalOp) (token : Token) (left right : Expr)
  /-- A call; `paren` is its closing parenthesis. -/
  | call (callee : Expr) (paren : Token) (arguments : List Expr)

/-- A statement or declaration. -/
inductive Stmt where
  | var (name : Token) (initializer : Option Expr)
  | function (name : Token) (parameters : List Token) (body : List Stmt)
  | expression (e : Expr)
  | print (e : Expr)
  | block (body : List Stmt)
  | ifThen (condition : Expr) (thenBranch : Stmt)
  | ifElse (condition : Expr) (thenBranch elseBranch : Stmt)
  /-- A loop. Its step is evaluated behind each round; `while` loops have none. -/
  | loop (condition : Expr) (step : Option Expr) (body : Stmt)
  | ret (keyword : Token) (value : Option Expr)

/-- A program is a list of statements and declarations. -/
abbrev Program := List Stmt

/-- The parts between the parentheses of a `for` loop. Each may be missing. -/
structure ForClauses where
  initializer : Option Stmt
  condition : Option Expr
  increment : Option Expr

/-- The `for` loop with a body. A missing condition is true. -/
def ForClauses.statement (clauses : ForClauses) (body : Stmt) : Stmt :=
  .block (clauses.initializer.toList ++
    [.loop (clauses.condition.getD (.literal (.boolean true))) clauses.increment body])

namespace Stmt

mutual

/-- The statement with its steps inside the bodies of their loops, where each follows the body in a
block of its own: `while (condition) { body; step; }`. -/
def desugar : Stmt → Stmt
  | var name initializer => var name initializer
  | function name parameters body => function name parameters (desugarAll body)
  | expression e => expression e
  | print e => print e
  | block body => block (desugarAll body)
  | ifThen condition thenBranch => ifThen condition thenBranch.desugar
  | ifElse condition thenBranch elseBranch =>
    ifElse condition thenBranch.desugar elseBranch.desugar
  | loop condition none body => loop condition none body.desugar
  | loop condition (some step) body => loop condition none (block [body.desugar, expression step])
  | ret keyword value => ret keyword value

/-- Statements with their steps inside the bodies of their loops. -/
def desugarAll : List Stmt → List Stmt
  | [] => []
  | s :: rest => s.desugar :: desugarAll rest

end

end Stmt

/-- The program with its steps inside the bodies of their loops. -/
def Program.desugar (program : Program) : Program :=
  Stmt.desugarAll program

end Lox
