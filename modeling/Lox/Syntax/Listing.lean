import Lox.Syntax.Tree
import Lox.Token.Listing

/-!
# Tree listings

A tree is listed as an S-expression, with every operator in front of its operands in parentheses, or
in record notation. A loop with a step is listed as the loop that it is without.
-/

namespace Lox

open Text

/-- How trees are listed. -/
inductive TreeStyle where
  | sexpr
  | record
deriving DecidableEq

/-- Items in parentheses. -/
def Sexpr.paren (items : List String) : String :=
  "(" ++ " ".intercalate items ++ ")"

/-- A literal by its value. -/
def Atom.sexpr : Atom → String
  | .number x => Decimal.Layout.listed.text x
  | .boolean b => Record.boolean b
  | .nil => "nil"
  | .string s => s

/-- A literal in record notation. -/
def Atom.record : Atom → String
  | .number x => Record.tuple "Number" [Decimal.Layout.listed.text x]
  | .boolean b => Record.tuple "Bool" [Record.boolean b]
  | .nil => "Nil"
  | .string s => Record.tuple "StringLiteral" [quoteString s]

namespace Expr

mutual

/-- An expression as an S-expression. -/
def sexpr : Expr → String
  | literal atom => atom.sexpr
  | ident name => name.lexeme
  | group inner => Sexpr.paren ["group", inner.sexpr]
  | assign name value => Sexpr.paren ["=", name.lexeme, value.sexpr]
  | unary op _ operand => Sexpr.paren [op.symbol, operand.sexpr]
  | binary op _ left right => Sexpr.paren [op.symbol, left.sexpr, right.sexpr]
  | logical op _ left right => Sexpr.paren [op.symbol, left.sexpr, right.sexpr]
  | call callee _ arguments => Sexpr.paren ("call" :: callee.sexpr :: sexprs arguments)

/-- Expressions as S-expressions. -/
def sexprs : List Expr → List String
  | [] => []
  | e :: rest => e.sexpr :: sexprs rest

end

mutual

/-- An expression in record notation. -/
def record : Expr → String
  | literal atom => Record.tuple "Literal" [atom.record]
  | ident name => Record.tuple "Variable" [name.record]
  | group inner => Record.tuple "Grouping" [inner.record]
  | assign name value =>
    Record.fields "Assign" [("name", name.record), ("value", value.record)]
  | unary op token operand =>
    Record.fields "Unary"
      [("operator", op.recordName), ("token", token.record), ("rhs", operand.record)]
  | binary op token left right =>
    Record.fields "Binary"
      [("operator", op.recordName), ("token", token.record), ("lhs", left.record),
        ("rhs", right.record)]
  | logical op token left right =>
    Record.fields "Logical"
      [("operator", op.recordName), ("token", token.record), ("lhs", left.record),
        ("rhs", right.record)]
  | call callee paren arguments =>
    Record.fields "Call"
      [("callee", callee.record), ("paren", paren.record),
        ("arguments", Record.list (records arguments))]

/-- Expressions in record notation. -/
def records : List Expr → List String
  | [] => []
  | e :: rest => e.record :: records rest

end

/-- An expression in a style. -/
def text : TreeStyle → Expr → String
  | .sexpr, e => e.sexpr
  | .record, e => e.record

end Expr

namespace Stmt

mutual

/-- A statement as an S-expression. -/
def sexpr : Stmt → String
  | var name none => Sexpr.paren ["var", name.lexeme]
  | var name (some e) => Sexpr.paren ["var", name.lexeme, e.sexpr]
  | function name parameters body =>
    Sexpr.paren ("fun" :: name.lexeme :: Sexpr.paren (parameters.map (·.lexeme)) :: sexprs body)
  | expression e => Sexpr.paren ["expr", e.sexpr]
  | print e => Sexpr.paren ["print", e.sexpr]
  | block body => Sexpr.paren ("block" :: sexprs body)
  | ifThen condition thenBranch => Sexpr.paren ["if", condition.sexpr, thenBranch.sexpr]
  | ifElse condition thenBranch elseBranch =>
    Sexpr.paren ["if", condition.sexpr, thenBranch.sexpr, elseBranch.sexpr]
  | loop condition none body => Sexpr.paren ["while", condition.sexpr, body.sexpr]
  | loop condition (some step) body =>
    Sexpr.paren ["while", condition.sexpr,
      Sexpr.paren ["block", body.sexpr, Sexpr.paren ["expr", step.sexpr]]]
  | ret _ none => Sexpr.paren ["return"]
  | ret _ (some e) => Sexpr.paren ["return", e.sexpr]

/-- Statements as S-expressions. -/
def sexprs : List Stmt → List String
  | [] => []
  | s :: rest => s.sexpr :: sexprs rest

end

mutual

/-- A statement in record notation. -/
def record : Stmt → String
  | var name initializer =>
    Record.fields "Var"
      [("name", name.record), ("initializer", Record.optional (initializer.map Expr.record))]
  | function name parameters body =>
    Record.tuple "Function"
      [Record.fields "FunctionDecl"
        [("name", name.record), ("parameters", Record.list (parameters.map Token.record)),
          ("body", Record.list (records body))]]
  | expression e => Record.tuple "Expression" [e.record]
  | print e => Record.tuple "Print" [e.record]
  | block body => Record.tuple "Block" [Record.list (records body)]
  | ifThen condition thenBranch =>
    Record.fields "If"
      [("condition", condition.record), ("then_branch", thenBranch.record),
        ("else_branch", Record.optional none)]
  | ifElse condition thenBranch elseBranch =>
    Record.fields "If"
      [("condition", condition.record), ("then_branch", thenBranch.record),
        ("else_branch", Record.optional (some elseBranch.record))]
  | loop condition none body =>
    Record.fields "While" [("condition", condition.record), ("body", body.record)]
  | loop condition (some step) body =>
    Record.fields "While"
      [("condition", condition.record),
        ("body", Record.tuple "Block"
          [Record.list [body.record, Record.tuple "Expression" [step.record]]])]
  | ret keyword value =>
    Record.fields "Return"
      [("keyword", keyword.record), ("value", Record.optional (value.map Expr.record))]

/-- Statements in record notation. -/
def records : List Stmt → List String
  | [] => []
  | s :: rest => s.record :: records rest

end

/-- A statement in a style. -/
def text : TreeStyle → Stmt → String
  | .sexpr, s => s.sexpr
  | .record, s => s.record

end Stmt

/-- A program in a style, a statement on each line. -/
def Program.text (style : TreeStyle) (program : Program) : String :=
  "\n".intercalate (program.map (Stmt.text style))

end Lox
