import Lox.Syntax.Expression

/-!
# Parsing programs

A program is read statement by statement up to the end mark. A statement that fails is reported and
dropped, and reading resumes behind the next semicolon or in front of the next token that starts a
statement, inside the block in which the statement stood.
-/

namespace Lox

namespace Parse

/-- The tokens at which reading resumes after an error in front of `tokens`. -/
def resume : List Token → List Token
  | [] => []
  | token :: rest =>
    if token.kind = .semicolon ∨ rest.head?.any (·.kind.startsStatement) then rest else resume rest

/-- Reading resumes at no more tokens than are left. -/
theorem length_resume_le (tokens : List Token) : (resume tokens).length ≤ tokens.length := by
  fun_induction resume tokens <;> grind

/-- If there is a token left, reading resumes at fewer. -/
theorem length_resume_lt {tokens : List Token} (h : 0 < tokens.length) :
    (resume tokens).length < tokens.length := by
  cases tokens with
  | nil => exact absurd h (Nat.lt_irrefl 0)
  | cons token rest =>
    have := length_resume_le rest
    rw [resume]
    split <;> grind

/-- What is left of a statement after recovery: the statement itself unless it failed, and fewer
tokens than before it. -/
structure Recovered (n : Nat) where
  statement? : Option Stmt
  rest : List Token
  errors : List SyntaxError
  shorter : rest.length < n

/-- Reports a statement that failed and drops it. -/
def recover {n : Nat} (h : 0 < n) (p : Bounded Stmt n) : Recovered n :=
  match p with
  | ⟨.done statement rest errors, within⟩ => ⟨some statement, rest, errors, within⟩
  | ⟨.failed error rest errors, within⟩ =>
    ⟨none, resume rest, errors ++ [error], by
      rcases Nat.eq_zero_or_pos rest.length with zero | pos
      · exact Nat.lt_of_le_of_lt (length_resume_le rest) (zero ▸ h)
      · exact Nat.lt_of_lt_of_le (length_resume_lt pos) within⟩

/-- Reads an expression that only a closing token may replace, and the closing token. -/
def optional (eof : Token) (place : Expectation) (tokens : List Token) :
    Bounded (Option Expr) tokens.length :=
  if (front eof tokens).kind = place.kind then (expect eof place tokens).map fun _ => none
  else
    (expression eof 0 tokens).andRead fun e rest _ =>
      (expect eof place rest).map fun _ => some e

/-- Reads an expression and the token behind it. -/
def closed (eof : Token) (place : Expectation) (tokens : List Token) : Bounded Expr tokens.length :=
  (expression eof 0 tokens).andRead fun e rest _ =>
    (expect eof place rest).map fun _ => e

/-- Reads an expression between two tokens. -/
def enclosed (eof : Token) (start stop : Expectation) (tokens : List Token) :
    Bounded Expr tokens.length :=
  (expect eof start tokens).andRead fun _ rest _ => closed eof stop rest

/-- Reads the rest of a variable declaration. -/
def variableDeclaration (eof : Token) (tokens : List Token) : Bounded Stmt tokens.length :=
  (expect eof .variableName tokens).andRead fun name rest _ =>
    match rest with
    | [] => reject eof (.expected .variableEnd) []
    | token :: rest =>
      if token.kind = .equal then
        ((closed eof .variableEnd rest).map fun e => .var name (some e)).behind token
      else (expect eof .variableEnd (token :: rest)).map fun _ => .var name none

/-- Reads parameters separated by commas, of which there have been `count` already. -/
def parameters (eof : Token) (count : Nat) (tokens : List Token) :
    Bounded (List Token) tokens.length :=
  ((expect eof .parameterName tokens).andThen fun parameter rest h =>
    match rest, h with
    | [], h => .done [parameter] [] h
    | token :: rest, h =>
      if token.kind = .comma then
        have shorter : rest.length < tokens.length := Nat.lt_of_succ_lt h
        ((parameters eof (count + 1) rest).map (parameter :: ·)).widen (Nat.le_of_lt shorter)
      else .done [parameter] (token :: rest) h).after
    (if argumentLimit ≤ count then [⟨.tooManyParameters, front eof tokens⟩] else [])
termination_by tokens.length

/-- Reads the parameters of a function and the parenthesis behind them. -/
def parameterList (eof : Token) (tokens : List Token) : Bounded (List Token) tokens.length :=
  if (front eof tokens).kind = .rightParen then
    (expect eof .parametersEnd tokens).map fun _ => []
  else
    (parameters eof 0 tokens).andRead fun parameters rest _ =>
      (expect eof .parametersEnd rest).map fun _ => parameters

/-- Reads the name and the parameters of a function, up to the brace before its body. -/
def signature (eof : Token) (tokens : List Token) :
    Bounded (Token × List Token) tokens.length :=
  (expect eof .functionName tokens).andRead fun name rest _ =>
    (expect eof .parametersStart rest).andRead fun _ rest _ =>
      (parameterList eof rest).andRead fun parameters rest _ =>
        (expect eof .bodyStart rest).map fun _ => (name, parameters)

/-- Reads the first of the parts of a `for` loop and the semicolon behind it. -/
def initializer (eof : Token) (tokens : List Token) : Bounded (Option Stmt) tokens.length :=
  match tokens with
  | [] => (closed eof .expressionEnd []).map fun e => some (.expression e)
  | token :: rest =>
    if token.kind = .semicolon then .one none token rest
    else if token.kind = .kwVar then ((variableDeclaration eof rest).map some).behind token
    else (closed eof .expressionEnd (token :: rest)).map fun e => some (.expression e)

/-- Reads the parts of a `for` loop between its parentheses. -/
def clauses (eof : Token) (tokens : List Token) : Bounded ForClauses tokens.length :=
  (expect eof .forStart tokens).andRead fun _ rest _ =>
    (initializer eof rest).andRead fun initializer rest _ =>
      (optional eof .forConditionEnd rest).andRead fun condition rest _ =>
        (optional eof .forEnd rest).map fun increment => ⟨initializer, condition, increment⟩

mutual

/-- Reads a declaration or statement. -/
def declaration (eof : Token) (tokens : List Token) : Bounded Stmt tokens.length :=
  match tokens with
  | [] => statement eof []
  | token :: rest =>
    if token.kind = .kwFun then (function eof rest).behind token
    else if token.kind = .kwVar then (variableDeclaration eof rest).behind token
    else statement eof (token :: rest)
termination_by 3 * tokens.length + 1

/-- Reads the rest of a function declaration. -/
def function (eof : Token) (tokens : List Token) : Bounded Stmt tokens.length :=
  (signature eof tokens).andRead fun (name, parameters) rest _ =>
    (block eof rest).map (.function name parameters)
termination_by 3 * tokens.length

/-- Reads a statement that is not a declaration. -/
def statement (eof : Token) (tokens : List Token) : Bounded Stmt tokens.length :=
  match tokens with
  | [] => (closed eof .expressionEnd []).map .expression
  | token :: rest =>
    match token.kind with
    | .kwPrint => ((closed eof .printEnd rest).map .print).behind token
    | .kwReturn => ((optional eof .returnEnd rest).map (.ret token)).behind token
    | .leftBrace => ((block eof rest).map .block).behind token
    | .kwIf =>
      ((enclosed eof .ifStart .ifEnd rest).andRead fun condition rest _ =>
        branches eof condition rest).behind token
    | .kwWhile =>
      ((enclosed eof .whileStart .whileEnd rest).andRead fun condition rest _ =>
        (statement eof rest).map (.loop condition none)).behind token
    | .kwFor =>
      ((clauses eof rest).andRead fun clauses rest _ =>
        (statement eof rest).map clauses.statement).behind token
    | _ => (closed eof .expressionEnd (token :: rest)).map .expression
termination_by 3 * tokens.length

/-- Reads the branches of an `if`. An `else` belongs to the nearest one. -/
def branches (eof : Token) (condition : Expr) (tokens : List Token) : Bounded Stmt tokens.length :=
  (statement eof tokens).andThen fun thenBranch rest h =>
    match rest, h with
    | [], h => .done (.ifThen condition thenBranch) [] h
    | token :: rest, h =>
      if token.kind = .kwElse then
        have shorter : rest.length < tokens.length := Nat.lt_of_succ_lt h
        ((statement eof rest).map (.ifElse condition thenBranch)).widen (Nat.le_of_lt shorter)
      else .done (.ifThen condition thenBranch) (token :: rest) h
termination_by 3 * tokens.length + 1

/-- Reads declarations up to a closing brace, and the brace. -/
def block (eof : Token) (tokens : List Token) : Bounded (List Stmt) tokens.length :=
  match tokens with
  | [] => reject eof (.expected .blockEnd) []
  | token :: rest =>
    if token.kind = .rightBrace then .one [] token rest
    else
      match recover (Nat.succ_pos _) (declaration eof (token :: rest)) with
      | ⟨statement?, rest', errors, shorter⟩ =>
        (((block eof rest').map (statement?.toList ++ ·)).after errors).widen (Nat.le_of_lt shorter)
termination_by 3 * tokens.length + 2

end

/-- Reads declarations up to the end. -/
def declarations (eof : Token) (tokens : List Token) : Program × List SyntaxError :=
  match tokens with
  | [] => ([], [])
  | token :: rest =>
    match recover (Nat.succ_pos _) (declaration eof (token :: rest)) with
    | ⟨statement?, rest', earlier, _shorter⟩ =>
      let (program, later) := declarations eof rest'
      (statement?.toList ++ program, earlier ++ later)
termination_by tokens.length

/-- The end mark of a list of tokens: its first one, or else one behind the last token. -/
def endOf (tokens : List Token) : Token :=
  match tokens.find? (·.kind = .eof), tokens.getLast? with
  | some eof, _ => eof
  | none, some last => .endMark last.line last.span.stop
  | none, none => .endMark 1 0

/-- The tokens before the end mark. -/
def beforeEnd (tokens : List Token) : List Token :=
  tokens.takeWhile (·.kind ≠ .eof)

end Parse

/-- The program that a list of tokens holds, with the `for` loops as they are, without its malformed
statements, and what is wrong with these, in the order in which it was found. -/
def Program.parseLoops (tokens : List Token) : Program × List SyntaxError :=
  Parse.declarations (Parse.endOf tokens) (Parse.beforeEnd tokens)

/-- The program that a list of tokens holds, desugared, and what is wrong with the tokens. -/
def Program.parse (tokens : List Token) : Program × List SyntaxError :=
  let (program, errors) := Program.parseLoops tokens
  (program.desugar, errors)

/-- The expression in front of a list of tokens. -/
def Expr.parse (tokens : List Token) : Parsed Expr :=
  (Parse.expression (Parse.endOf tokens) 0 (Parse.beforeEnd tokens)).result

end Lox
