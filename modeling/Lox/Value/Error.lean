import Lox.Diagnostic
import Lox.Value.Basic

/-!
# Runtime errors

What can go wrong while a program runs, each at the token to which it is attributed.
-/

namespace Lox

/-- Why execution cannot go on. -/
inductive RuntimeCause where
  | notNumber (operand : Value)
  | notNumbers (left right : Value)
  | notAddable (left right : Value)
  | undefinedVariable (name : String)
  | notCallable (callee : Value)
  | wrongArity (actual expected : Nat)

namespace RuntimeCause

/-- The stable code of a cause. -/
def code : RuntimeCause → String
  | notNumber _ => "RT001"
  | notNumbers _ _ => "RT002"
  | notAddable _ _ => "RT003"
  | undefinedVariable _ => "RT004"
  | notCallable _ => "RT005"
  | wrongArity _ _ => "RT006"

/-- The message for a cause. -/
def message : RuntimeCause → String
  | notNumber _ => "Operand must be a number."
  | notNumbers _ _ => "Operands must be numbers."
  | notAddable _ _ => "Operands must be two numbers or two strings."
  | undefinedVariable name => "Undefined variable '" ++ name ++ "'."
  | notCallable _ => "Can only call functions and classes."
  | wrongArity actual expected =>
    "Expected " ++ Text.Record.number expected ++ " arguments but got " ++
      Text.Record.number actual ++ "."

/-- The note to the place of a cause. -/
def label : RuntimeCause → String
  | notNumber operand => "operand is a " ++ operand.typeName
  | notNumbers left right | notAddable left right =>
    "operands are a " ++ left.typeName ++ " and a " ++ right.typeName
  | undefinedVariable _ => "not defined in any enclosing scope"
  | notCallable callee => "callee is a " ++ callee.typeName
  | wrongArity actual expected =>
    "called with " ++ Text.Record.number actual ++ " instead of " ++ Text.Record.number expected

/-- A cause in record notation. -/
def record : RuntimeCause → String
  | notNumber operand => Text.Record.tuple "NonNumeric" [operand.record]
  | notNumbers left right => Text.Record.tuple "NonNumerics" [left.record, right.record]
  | notAddable left right => Text.Record.tuple "NonAddable" [left.record, right.record]
  | undefinedVariable name => Text.Record.tuple "UndefinedVariable" [Text.quoteString name]
  | notCallable callee => Text.Record.tuple "InvalidCallee" [callee.record]
  | wrongArity actual expected =>
    Text.Record.fields "InvalidArgumentCount"
      [("actual", Text.Record.number actual), ("expected", Text.Record.number expected)]

end RuntimeCause

/-- A cause at the token to which it is attributed. -/
structure RuntimeError where
  cause : RuntimeCause
  token : Token

namespace RuntimeError

/-- The message and, below it, the line. -/
def text (e : RuntimeError) : String :=
  e.cause.message ++ "\n[line " ++ Text.Record.number e.token.line ++ "]"

/-- What there is to say about the error. -/
def diagnostic (e : RuntimeError) : Diagnostic :=
  ⟨e.cause.code, e.cause.message, e.cause.label, e.text, e.token.line, e.token.span⟩

end RuntimeError

end Lox
