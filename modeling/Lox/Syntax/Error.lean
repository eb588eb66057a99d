import Lox.Diagnostic

/-!
# Syntax errors

What the parser can object to. An `Expectation` is a place in the grammar that only one kind of
token can fill.
-/

namespace Lox

/-- A place in the grammar that only one kind of token can fill. -/
inductive Expectation where
  | groupEnd
  | argumentsEnd
  | variableName
  | variableEnd
  | functionName
  | parametersStart
  | parameterName
  | parametersEnd
  | bodyStart
  | blockEnd
  | printEnd
  | returnEnd
  | expressionEnd
  | ifStart
  | ifEnd
  | whileStart
  | whileEnd
  | forStart
  | forConditionEnd
  | forEnd
deriving DecidableEq

namespace Expectation

/-- The kind of token that fills the place. -/
def kind : Expectation → Kind
  | groupEnd | argumentsEnd | parametersEnd | ifEnd | whileEnd | forEnd => .rightParen
  | parametersStart | ifStart | whileStart | forStart => .leftParen
  | variableName | functionName | parameterName => .identifier
  | variableEnd | printEnd | returnEnd | expressionEnd | forConditionEnd => .semicolon
  | bodyStart => .leftBrace
  | blockEnd => .rightBrace

/-- The message for any other token in the place. -/
def message : Expectation → String
  | groupEnd => "Expect ')' after expression."
  | argumentsEnd => "Expect ')' after arguments."
  | variableName => "Expect variable name."
  | variableEnd => "Expect ';' after variable declaration."
  | functionName => "Expect function name."
  | parametersStart => "Expect '(' after function name."
  | parameterName => "Expect parameter name."
  | parametersEnd => "Expect ')' after parameters."
  | bodyStart => "Expect '\x7b' before function body."
  | blockEnd => "Expect '\x7d' after block."
  | printEnd => "Expect ';' after value."
  | returnEnd => "Expect ';' after return value."
  | expressionEnd => "Expect ';' after expression."
  | ifStart => "Expect '(' after 'if'."
  | ifEnd => "Expect ')' after if condition."
  | whileStart => "Expect '(' after 'while'."
  | whileEnd => "Expect ')' after condition."
  | forStart => "Expect '(' after 'for'."
  | forConditionEnd => "Expect ';' after loop condition."
  | forEnd => "Expect ')' after for clauses."

end Expectation

/-- The greatest number of arguments of a call and of parameters of a function. -/
def argumentLimit : Nat := 255

/-- Why the parser objects to a token. -/
inductive SyntaxCause where
  | expected (place : Expectation)
  | noExpression
  | invalidTarget
  | tooManyArguments
  | tooManyParameters
deriving DecidableEq

namespace SyntaxCause

/-- The stable code of a cause. -/
def code : SyntaxCause → String
  | expected _ => "PA001"
  | noExpression => "PA002"
  | invalidTarget => "PA003"
  | tooManyArguments => "PA004"
  | tooManyParameters => "PA005"

/-- The message for a cause. -/
def message : SyntaxCause → String
  | expected place => place.message
  | noExpression => "Expect expression."
  | invalidTarget => "Invalid assignment target."
  | tooManyArguments => "Can't have more than " ++ Text.Record.number argumentLimit ++ " arguments."
  | tooManyParameters =>
    "Can't have more than " ++ Text.Record.number argumentLimit ++ " parameters."

/-- The note to the place of a cause, where `found` names the token there. -/
def label (found : String) : SyntaxCause → String
  | expected place => "expected " ++ place.kind.name ++ " but found " ++ found
  | noExpression => found ++ " does not start an expression"
  | invalidTarget => "left side is not a variable"
  | tooManyArguments | tooManyParameters =>
    "this goes past the limit of " ++ Text.Record.number argumentLimit

end SyntaxCause

/-- An objection to a token. -/
structure SyntaxError where
  cause : SyntaxCause
  token : Token
deriving DecidableEq

namespace SyntaxError

/-- The error on one line. -/
def text (e : SyntaxError) : String :=
  let place := if e.token.kind = .eof then " at end" else " at '" ++ e.token.lexeme ++ "'"
  Diagnostic.heading e.token.line place ++ e.cause.message

/-- What there is to say about the error. -/
def diagnostic (e : SyntaxError) : Diagnostic :=
  let found := if e.token.kind = .eof then "end of file" else "'" ++ e.token.lexeme ++ "'"
  ⟨e.cause.code, e.cause.message, e.cause.label found, e.text, e.token.line, e.token.span⟩

end SyntaxError

end Lox
