import Lox.Syntax.Program
import Mathlib.Tactic.Common

/-!
# The rules of the parser

What each rule of the parser does, without the bounds that make parsing end: a rule is one equation
on results, put together with `Parsed.bind`. Proofs about the parser go by induction on its rules
(`Parse.expression.mutual_induct` and `Parse.declaration.mutual_induct`) and rewrite with these
equations. A result without errors comes from results without errors, which is what such proofs take
apart and put together.
-/

namespace Lox

namespace Parsed

variable {α β : Type}

/-- To report nothing first changes nothing. -/
@[simp]
lemma after_nil (p : Parsed α) : p.after [] = p := by
  cases p <;> rfl

/-- What goes on behind a rule that is done without errors. -/
@[simp]
lemma bind_done (value : α) (rest : List Token) (next : α → List Token → Parsed β) :
    (done value rest []).bind next = next value rest :=
  after_nil _

/-- What is made of a value that is read is read. -/
@[simp]
lemma map_done (value : α) (rest : List Token) (f : α → β) :
    (done value rest []).map f = done (f value) rest [] :=
  rfl

/-- There are no errors only if there were none before. -/
lemma after_eq_done {p : Parsed α} {earlier : List SyntaxError} {value : α} {rest : List Token} :
    p.after earlier = done value rest [] ↔ earlier = [] ∧ p = done value rest [] := by
  constructor
  · intro eq
    cases p with
    | done value rest errors =>
      rw [after, done.injEq, List.append_eq_nil_iff] at eq
      obtain ⟨rfl, rfl, rfl, rfl⟩ := eq
      exact ⟨rfl, rfl⟩
    | failed error rest errors => exact nomatch eq
  · rintro ⟨rfl, rfl⟩
    rfl

/-- Two rules are done without errors only if each of them is. -/
lemma bind_eq_done {p : Parsed α} {next : α → List Token → Parsed β} {value : β}
    {rest : List Token} :
    p.bind next = done value rest [] ↔
      ∃ first middle, p = done first middle [] ∧ next first middle = done value rest [] := by
  constructor
  · intro eq
    cases p with
    | done first middle errors =>
      obtain ⟨rfl, last⟩ := after_eq_done.mp eq
      exact ⟨first, middle, rfl, last⟩
    | failed error rest errors => exact nomatch eq
  · rintro ⟨first, middle, rfl, eq⟩
    exact (bind_done first middle next).trans eq

/-- A changed value is the value of a rule that is done. -/
lemma map_eq_done {p : Parsed α} {f : α → β} {value : β} {rest : List Token} :
    p.map f = done value rest [] ↔ ∃ first, p = done first rest [] ∧ f first = value := by
  constructor
  · intro eq
    obtain ⟨first, middle, rfl, eq⟩ := bind_eq_done.mp eq
    cases eq
    exact ⟨first, rfl, rfl⟩
  · rintro ⟨first, rfl, rfl⟩
    rfl

end Parsed

namespace Parse

variable (eof : Token)

/-- In front is the first token. -/
@[simp]
lemma front_cons (token : Token) (rest : List Token) : front eof (token :: rest) = token :=
  rfl

/-- A token that fills a place is taken. -/
lemma result_expect_cons (place : Expectation) (token : Token) (rest : List Token) :
    (expect eof place (token :: rest)).result =
      if token.kind = place.kind then .done token rest []
      else .failed ⟨.expected place, token⟩ (token :: rest) [] := by
  rw [expect]
  split
  · rfl
  · rfl

/-- A place is filled without errors by the token in front only. -/
lemma expect_eq_done {place : Expectation} {tokens rest : List Token} {token : Token}
    (h : (expect eof place tokens).result = .done token rest []) :
    tokens = token :: rest ∧ token.kind = place.kind := by
  cases tokens with
  | nil => exact nomatch h
  | cons first others =>
    rw [result_expect_cons] at h
    split at h
    · cases h
      exact ⟨rfl, ‹_›⟩
    · exact nomatch h

/-- An expected token in front is taken. -/
lemma expect_done {place : Expectation} {token : Token} (h : token.kind = place.kind)
    (rest : List Token) :
    (expect eof place (token :: rest)).result = .done token rest [] := by
  rw [result_expect_cons, if_pos h]

/-- An assignment needs a variable on its left. -/
lemma result_assign {n : Nat} (token : Token) (left value : Expr) (rest : List Token)
    (h : rest.length < n) :
    (assign token left value rest h).result =
      match left with
      | .ident name => .done (.assign name value) rest []
      | left => .done left rest [⟨.invalidTarget, token⟩] := by
  cases left <;> rfl

/-- An expression is an operand and what goes on behind it. -/
lemma result_expression (power : Nat) (tokens : List Token) :
    (expression eof power tokens).result =
      (operand eof tokens).result.bind fun left rest => (continued eof power left rest).result := by
  rw [expression]
  exact Bounded.result_andThen fun _ _ _ => rfl

/-- Where no tokens are left, there is no operand. -/
lemma result_operand_nil : (operand eof []).result = .failed ⟨.noExpression, eof⟩ [] [] := by
  rw [operand]
  rfl

/-- The first token of an operand says how to go on. -/
lemma result_operand_cons (token : Token) (rest : List Token) :
    (operand eof (token :: rest)).result =
      match Leading.ofToken? token with
      | none => .failed ⟨.noExpression, token⟩ (token :: rest) []
      | some (.atom atom) => .done (.literal atom) rest []
      | some .name => .done (.ident token) rest []
      | some (.unary op) => (expression eof op.power rest).result.map (.unary op token)
      | some .group =>
        (expression eof 0 rest).result.bind fun inner rest =>
          (expect eof .groupEnd rest).result.map fun _ => .group inner := by
  rw [operand]
  cases Leading.ofToken? token with
  | none => rfl
  | some leading =>
    cases leading with
    | atom atom => rfl
    | name => rfl
    | group =>
      refine (Bounded.result_behind _ _).trans (Bounded.result_andRead fun inner rest _ => ?_)
      exact Bounded.result_map _ _
    | unary op => exact (Bounded.result_behind _ _).trans (Bounded.result_map _ _)

/-- Where no tokens are left, nothing goes on with an operand. -/
lemma result_continued_nil (power : Nat) (left : Expr) :
    (continued eof power left []).result = .done left [] [] := by
  rw [continued]
  rfl

/-- What follows an operand goes on with it if it holds it tightly enough. -/
lemma result_continued_cons (power : Nat) (left : Expr) (token : Token) (rest : List Token) :
    (continued eof power left (token :: rest)).result =
      match Continuation.ofKind? token.kind with
      | none => .done left (token :: rest) []
      | some c =>
        if c.leftPower < power then .done left (token :: rest) []
        else
          (extended eof left token c rest).result.bind fun left rest =>
            (continued eof power left rest).result := by
  rw [continued]
  cases Continuation.ofKind? token.kind with
  | none => rfl
  | some c =>
    dsimp only
    split
    · rfl
    · exact (Bounded.result_widen _ _).trans (Bounded.result_andThen fun _ _ _ => rfl)

/-- A call goes on with its arguments, if it has any, and the parenthesis behind them. -/
lemma result_extended_call (left : Expr) (token : Token) (tokens : List Token) :
    (extended eof left token .call tokens).result =
      if (front eof tokens).kind = .rightParen then
        (expect eof .argumentsEnd tokens).result.map fun paren => .call left paren []
      else
        (arguments eof 0 tokens).result.bind fun arguments rest =>
          (expect eof .argumentsEnd rest).result.map fun paren => .call left paren arguments := by
  rw [extended]
  split
  · exact Bounded.result_map _ _
  · exact Bounded.result_andRead fun _ _ _ => Bounded.result_map _ _

/-- A binary operator goes on with its right operand. -/
lemma result_extended_binary (left : Expr) (token : Token) (op : BinaryOp) (tokens : List Token) :
    (extended eof left token (.binary op) tokens).result =
      (expression eof (op.leftPower + 1) tokens).result.map (.binary op token left) := by
  rw [extended]
  exact Bounded.result_map _ _

/-- Behind an operator that may leave its right side alone stands a tighter expression. -/
lemma result_extended_logical (left : Expr) (token : Token) (op : LogicalOp)
    (tokens : List Token) :
    (extended eof left token (.logical op) tokens).result =
      (expression eof (op.leftPower + 1) tokens).result.map (.logical op token left) := by
  rw [extended]
  exact Bounded.result_map _ _

/-- An assignment goes on with its value, and looks at its target then. -/
lemma result_extended_assign (left : Expr) (token : Token) (tokens : List Token) :
    (extended eof left token .assign tokens).result =
      (expression eof 1 tokens).result.bind fun value rest =>
        match left with
        | .ident name => .done (.assign name value) rest []
        | left => .done left rest [⟨.invalidTarget, token⟩] := by
  rw [extended]
  exact Bounded.result_andThen fun _ _ _ => result_assign _ _ _ _ _

/-- An argument is followed by others if a comma follows it. -/
lemma result_arguments (count : Nat) (tokens : List Token) :
    (arguments eof count tokens).result =
      ((expression eof 0 tokens).result.bind fun argument rest =>
        match rest with
        | [] => .done [argument] [] []
        | token :: rest =>
          if token.kind = .comma then
            (arguments eof (count + 1) rest).result.map (argument :: ·)
          else .done [argument] (token :: rest) []).after
        (if argumentLimit ≤ count then [⟨.tooManyArguments, front eof tokens⟩] else []) := by
  rw [arguments, Bounded.result_after]
  congr 1
  refine Bounded.result_andThen fun argument rest h => ?_
  cases rest with
  | nil => rfl
  | cons token rest =>
    dsimp only
    split
    · exact (Bounded.result_widen _ _).trans (Bounded.result_map _ _)
    · rfl

/-- A closing token replaces an expression, or follows it. -/
lemma result_optional (place : Expectation) (tokens : List Token) :
    (optional eof place tokens).result =
      if (front eof tokens).kind = place.kind then
        (expect eof place tokens).result.map fun _ => none
      else
        (expression eof 0 tokens).result.bind fun e rest =>
          (expect eof place rest).result.map fun _ => some e := by
  rw [optional]
  split
  · exact Bounded.result_map _ _
  · exact Bounded.result_andRead fun _ _ _ => Bounded.result_map _ _

/-- An expression is read, and the token behind it is expected. -/
lemma result_closed (place : Expectation) (tokens : List Token) :
    (closed eof place tokens).result =
      (expression eof 0 tokens).result.bind fun e rest =>
        (expect eof place rest).result.map fun _ => e := by
  rw [closed]
  exact Bounded.result_andRead fun _ _ _ => Bounded.result_map _ _

/-- A token is expected, and an expression with a token behind it is read. -/
lemma result_enclosed (start stop : Expectation) (tokens : List Token) :
    (enclosed eof start stop tokens).result =
      (expect eof start tokens).result.bind fun _ rest => (closed eof stop rest).result := by
  rw [enclosed]
  exact Bounded.result_andRead fun _ _ _ => rfl

/-- A variable declaration may have an initializer. -/
lemma result_variableDeclaration (tokens : List Token) :
    (variableDeclaration eof tokens).result =
      (expect eof .variableName tokens).result.bind fun name rest =>
        match rest with
        | [] => .failed ⟨.expected .variableEnd, eof⟩ [] []
        | token :: rest =>
          if token.kind = .equal then
            (closed eof .variableEnd rest).result.map fun e => .var name (some e)
          else (expect eof .variableEnd (token :: rest)).result.map fun _ => .var name none := by
  rw [variableDeclaration]
  refine Bounded.result_andRead fun name rest _ => ?_
  cases rest with
  | nil => rfl
  | cons token rest =>
    dsimp only
    split
    · exact (Bounded.result_behind _ _).trans (Bounded.result_map _ _)
    · exact Bounded.result_map _ _

/-- A parameter is followed by others if a comma follows it. -/
lemma result_parameters (count : Nat) (tokens : List Token) :
    (parameters eof count tokens).result =
      ((expect eof .parameterName tokens).result.bind fun parameter rest =>
        match rest with
        | [] => .done [parameter] [] []
        | token :: rest =>
          if token.kind = .comma then
            (parameters eof (count + 1) rest).result.map (parameter :: ·)
          else .done [parameter] (token :: rest) []).after
        (if argumentLimit ≤ count then [⟨.tooManyParameters, front eof tokens⟩] else []) := by
  rw [parameters, Bounded.result_after]
  congr 1
  refine Bounded.result_andThen fun parameter rest h => ?_
  cases rest with
  | nil => rfl
  | cons token rest =>
    dsimp only
    split
    · exact (Bounded.result_widen _ _).trans (Bounded.result_map _ _)
    · rfl

/-- The parameters of a function, if it has any, are followed by a parenthesis. -/
lemma result_parameterList (tokens : List Token) :
    (parameterList eof tokens).result =
      if (front eof tokens).kind = .rightParen then
        (expect eof .parametersEnd tokens).result.map fun _ => []
      else
        (parameters eof 0 tokens).result.bind fun parameters rest =>
          (expect eof .parametersEnd rest).result.map fun _ => parameters := by
  rw [parameterList]
  split
  · exact Bounded.result_map _ _
  · exact Bounded.result_andRead fun _ _ _ => Bounded.result_map _ _

/-- A function has a name and parameters, and a brace follows them. -/
lemma result_signature (tokens : List Token) :
    (signature eof tokens).result =
      (expect eof .functionName tokens).result.bind fun name rest =>
        (expect eof .parametersStart rest).result.bind fun _ rest =>
          (parameterList eof rest).result.bind fun parameters rest =>
            (expect eof .bodyStart rest).result.map fun _ => (name, parameters) := by
  rw [signature]
  refine Bounded.result_andRead fun name rest _ => ?_
  refine Bounded.result_andRead fun _ rest _ => ?_
  exact Bounded.result_andRead fun parameters rest _ => Bounded.result_map _ _

/-- Where no tokens are left, an expression is expected as the initializer. -/
lemma result_initializer_nil :
    (initializer eof []).result =
      (closed eof .expressionEnd []).result.map fun e => some (.expression e) := by
  rw [initializer]
  exact Bounded.result_map _ _

/-- The initializer of a loop may be missing, declare a variable or be an expression statement. -/
lemma result_initializer_cons (token : Token) (rest : List Token) :
    (initializer eof (token :: rest)).result =
      if token.kind = .semicolon then .done none rest []
      else if token.kind = .kwVar then (variableDeclaration eof rest).result.map some
      else
        (closed eof .expressionEnd (token :: rest)).result.map fun e => some (.expression e) := by
  rw [initializer]
  split
  · rfl
  · split
    · exact (Bounded.result_behind _ _).trans (Bounded.result_map _ _)
    · exact Bounded.result_map _ _

/-- The parts of a loop are read one behind the other. -/
lemma result_clauses (tokens : List Token) :
    (clauses eof tokens).result =
      (expect eof .forStart tokens).result.bind fun _ rest =>
        (initializer eof rest).result.bind fun initializer rest =>
          (optional eof .forConditionEnd rest).result.bind fun condition rest =>
            (optional eof .forEnd rest).result.map fun increment =>
              ⟨initializer, condition, increment⟩ := by
  rw [clauses]
  refine Bounded.result_andRead fun _ rest _ => ?_
  refine Bounded.result_andRead fun initializer rest _ => ?_
  exact Bounded.result_andRead fun condition rest _ => Bounded.result_map _ _

/-- Where no tokens are left, a statement is expected as the declaration. -/
lemma result_declaration_nil : (declaration eof []).result = (statement eof []).result := by
  rw [declaration]

/-- The first token of a declaration says which one it is. -/
lemma result_declaration_cons (token : Token) (rest : List Token) :
    (declaration eof (token :: rest)).result =
      if token.kind = .kwFun then (function eof rest).result
      else if token.kind = .kwVar then (variableDeclaration eof rest).result
      else (statement eof (token :: rest)).result := by
  rw [declaration]
  split
  · rfl
  · split
    · rfl
    · rfl

/-- A function is its signature with its body. -/
lemma result_function (tokens : List Token) :
    (function eof tokens).result =
      (signature eof tokens).result.bind fun (name, parameters) rest =>
        (block eof rest).result.map (.function name parameters) := by
  rw [function]
  exact Bounded.result_andRead fun _ _ _ => Bounded.result_map _ _

/-- Where no tokens are left, an expression is expected as the statement. -/
lemma result_statement_nil :
    (statement eof []).result = (closed eof .expressionEnd []).result.map .expression := by
  rw [statement]
  exact Bounded.result_map _ _

/-- The first token of a statement says which one it is. -/
lemma result_statement_cons (token : Token) (rest : List Token) :
    (statement eof (token :: rest)).result =
      match token.kind with
      | .kwPrint => (closed eof .printEnd rest).result.map .print
      | .kwReturn => (optional eof .returnEnd rest).result.map (.ret token)
      | .leftBrace => (block eof rest).result.map .block
      | .kwIf =>
        (enclosed eof .ifStart .ifEnd rest).result.bind fun condition rest =>
          (branches eof condition rest).result
      | .kwWhile =>
        (enclosed eof .whileStart .whileEnd rest).result.bind fun condition rest =>
          (statement eof rest).result.map (.loop condition none)
      | .kwFor =>
        (clauses eof rest).result.bind fun clauses rest =>
          (statement eof rest).result.map clauses.statement
      | _ => (closed eof .expressionEnd (token :: rest)).result.map .expression := by
  rw [statement]
  cases token.kind with
  | kwPrint | kwReturn | leftBrace =>
    exact (Bounded.result_behind _ _).trans (Bounded.result_map _ _)
  | kwIf => exact (Bounded.result_behind _ _).trans (Bounded.result_andRead fun _ _ _ => rfl)
  | kwWhile | kwFor =>
    refine (Bounded.result_behind _ _).trans (Bounded.result_andRead fun _ _ _ => ?_)
    exact Bounded.result_map _ _
  | _ => exact Bounded.result_map _ _

/-- A branch is followed by another one if an `else` follows it. -/
lemma result_branches (condition : Expr) (tokens : List Token) :
    (branches eof condition tokens).result =
      (statement eof tokens).result.bind fun thenBranch rest =>
        match rest with
        | [] => .done (.ifThen condition thenBranch) [] []
        | token :: rest =>
          if token.kind = .kwElse then
            (statement eof rest).result.map (.ifElse condition thenBranch)
          else .done (.ifThen condition thenBranch) (token :: rest) [] := by
  rw [branches]
  refine Bounded.result_andThen fun thenBranch rest h => ?_
  cases rest with
  | nil => rfl
  | cons token rest =>
    dsimp only
    split
    · exact (Bounded.result_widen _ _).trans (Bounded.result_map _ _)
    · rfl

/-- What is left of a result after recovery: a statement unless it failed, the tokens at which
reading resumes, and the errors. -/
def recovered : Parsed Stmt → Option Stmt × List Token × List SyntaxError
  | .done statement rest errors => (some statement, rest, errors)
  | .failed error rest errors => (none, resume rest, errors ++ [error])

/-- Recovery looks at results only. -/
lemma recovered_eq {n : Nat} {h : 0 < n} {p : Bounded Stmt n} {statement? : Option Stmt}
    {rest : List Token} {errors : List SyntaxError} {shorter : rest.length < n}
    (found : recover h p = ⟨statement?, rest, errors, shorter⟩) :
    recovered p.result = (statement?, rest, errors) := by
  obtain ⟨result, within⟩ := p
  cases result with
  | done statement rest errors =>
    cases found
    rfl
  | failed error rest errors =>
    cases found
    rfl

/-- Where no tokens are left, the end of the block is missing. -/
lemma result_block_nil :
    (block eof []).result = .failed ⟨.expected .blockEnd, eof⟩ [] [] := by
  rw [block]
  rfl

/-- A block ends with a brace; anything else is one more declaration, from which it recovers. -/
lemma result_block_cons (token : Token) (rest : List Token) :
    (block eof (token :: rest)).result =
      if token.kind = .rightBrace then .done [] rest []
      else
        let (statement?, rest', errors) := recovered (declaration eof (token :: rest)).result
        ((block eof rest').result.map (statement?.toList ++ ·)).after errors := by
  rw [block]
  split
  · rfl
  · obtain ⟨result, within⟩ := declaration eof (token :: rest)
    cases result with
    | done statement rest' errors =>
      refine (Bounded.result_widen _ _).trans ((Bounded.result_after _ _).trans ?_)
      exact congrArg _ (Bounded.result_map _ _)
    | failed error rest' errors =>
      refine (Bounded.result_widen _ _).trans ((Bounded.result_after _ _).trans ?_)
      exact congrArg _ (Bounded.result_map _ _)

/-- Where no tokens are left, the program ends. -/
lemma declarations_nil : declarations eof [] = ([], []) := by
  rw [declarations]

/-- A program goes on behind each declaration, from which it recovers. -/
lemma declarations_cons (token : Token) (rest : List Token) :
    declarations eof (token :: rest) =
      let (statement?, rest', earlier) := recovered (declaration eof (token :: rest)).result
      let (program, later) := declarations eof rest'
      (statement?.toList ++ program, earlier ++ later) := by
  rw [declarations]
  obtain ⟨result, within⟩ := declaration eof (token :: rest)
  cases result with
  | done statement rest' errors => rfl
  | failed error rest' errors => rfl

end Parse

end Lox
