import Lox.Proofs.Relabel.Places

/-!
# Parsing relabelled tokens

The parser looks at the kinds of tokens and at the values they carry, also where it objects to them
and recovers. If all tokens are replaced in a way that keeps both, it builds the relabelled trees,
and has the same objections to the tokens that have taken the place of the old ones.
-/

namespace Lox

/-- The objection to the token that has taken the place of another one. -/
def SyntaxError.retoken (f : Token → Token) (e : SyntaxError) : SyntaxError :=
  ⟨e.cause, f e.token⟩

namespace Parsed

variable {α β α' β' : Type} {f : Token → Token} {g : α → α'} {g' : β → β'}

/-- The result over replaced tokens, given what becomes of its value. -/
def retoken (f : Token → Token) (g : α → α') : Parsed α → Parsed α'
  | done value rest errors => done (g value) (rest.map f) (errors.map (SyntaxError.retoken f))
  | failed error rest errors =>
    failed (error.retoken f) (rest.map f) (errors.map (SyntaxError.retoken f))

/-- Errors reported first are about replaced tokens as well. -/
lemma retoken_after (p : Parsed α) (earlier : List SyntaxError) :
    (p.after earlier).retoken f g =
      (p.retoken f g).after (earlier.map (SyntaxError.retoken f)) := by
  cases p with
  | done value rest errors =>
    rw [after, retoken, retoken, after, List.map_append]
  | failed error rest errors =>
    rw [after, retoken, retoken, after, List.map_append]

/-- What goes on behind a rule goes on behind the rule over replaced tokens. -/
lemma retoken_bind {p : Parsed α} {q : Parsed α'} {next : α → List Token → Parsed β}
    {next' : α' → List Token → Parsed β'} (same : q = p.retoken f g)
    (behind : ∀ value rest, next' (g value) (rest.map f) = (next value rest).retoken f g') :
    q.bind next' = (p.bind next).retoken f g' := by
  subst same
  cases p with
  | done value rest errors => rw [retoken, bind, behind, bind, retoken_after]
  | failed error rest errors => rfl

/-- What is made of the values is made of them also over replaced tokens. -/
lemma retoken_map {p : Parsed α} {q : Parsed α'} {k : α → β} {k' : α' → β'}
    (same : q = p.retoken f g) (behind : ∀ value, k' (g value) = g' (k value)) :
    q.map k' = (p.map k).retoken f g' :=
  retoken_bind same fun value rest => by rw [behind, retoken, List.map_nil]

end Parsed

/-- The tokens left by a rule that is done are within its bound. -/
lemma Bounded.retoken_bind {α β α' β' : Type} {n : Nat} {f : Token → Token} {g : α → α'}
    {g' : β → β'} {p : Bounded α n} {q : Parsed α'} {next : α → List Token → Parsed β}
    {next' : α' → List Token → Parsed β'} (same : q = p.result.retoken f g)
    (behind : ∀ value rest, rest.length < n →
      next' (g value) (rest.map f) = (next value rest).retoken f g') :
    q.bind next' = (p.result.bind next).retoken f g' := by
  subst same
  obtain ⟨result, within⟩ := p
  cases result with
  | done value rest errors =>
    rw [Parsed.retoken, Parsed.bind, behind value rest within, Parsed.bind, Parsed.retoken_after]
  | failed error rest errors => rfl

/-- A way to replace tokens that the parser does not notice. -/
structure Replacement where
  token : Token → Token
  kind_token (t : Token) : (token t).kind = t.kind
  literal_token (t : Token) : (token t).literal = t.literal
  lexeme_token (t : Token) : (token t).lexeme = t.lexeme

/-- Tokens without their places. -/
def Replacement.bare : Replacement where
  token := Token.bare
  kind_token _ := rfl
  literal_token _ := rfl
  lexeme_token _ := rfl

/-- The relabelling that replaces all tokens. -/
def Replacement.relabelling (f : Replacement) : Relabelling :=
  .uniform f.token f.lexeme_token

section

variable (r : Relabelling)

/-- Statements are relabelled one by one. -/
lemma Stmt.relabelAll_eq (ss : List Stmt) : relabelAll r ss = ss.map (relabel r) := by
  induction ss with
  | nil => rfl
  | cons s rest ih => exact congrArg (s.relabel r :: ·) ih

/-- A loop is relabelled part by part. -/
lemma ForClauses.relabel_statement (clauses : ForClauses) (body : Stmt) :
    (clauses.statement body).relabel r = (clauses.relabel r).statement (body.relabel r) := by
  obtain ⟨initializer, condition, increment⟩ := clauses
  cases initializer with
  | none =>
    cases condition with
    | none => rfl
    | some e => rfl
  | some s =>
    cases condition with
    | none => rfl
    | some e => rfl

mutual

/-- Relabelling commutes with desugaring. -/
lemma Stmt.relabel_desugar : ∀ s : Stmt, s.desugar.relabel r = (s.relabel r).desugar
  | .var _ _ | .expression _ | .print _ | .ret _ _ => rfl
  | .function name parameters body => by
    rw [desugar, relabel, relabelAll_desugarAll body, relabel, desugar]
  | .block body => by
    rw [desugar, relabel, relabelAll_desugarAll body, relabel, desugar]
  | .ifThen condition thenBranch => by
    rw [desugar, relabel, relabel_desugar thenBranch, relabel, desugar]
  | .ifElse condition thenBranch elseBranch => by
    rw [desugar, relabel, relabel_desugar thenBranch, relabel_desugar elseBranch, relabel, desugar]
  | .loop condition none body => by
    rw [desugar, relabel, relabel_desugar body, relabel, Option.map_none, desugar]
  | .loop condition (some step) body => by
    simp only [desugar, relabel, relabelAll, relabel_desugar body, Option.map_none, Option.map_some]

/-- Statements are relabelled as well before as after they are desugared. -/
lemma Stmt.relabelAll_desugarAll : ∀ ss : List Stmt,
    relabelAll r (desugarAll ss) = desugarAll (relabelAll r ss)
  | [] => rfl
  | s :: rest => by
    rw [desugarAll, relabelAll, relabel_desugar s, relabelAll_desugarAll rest, relabelAll,
      desugarAll]

end

end

namespace Parse

variable {r : Relabelling} (h : r.Faithful) (eof : Token)

include h

omit h in
/-- The replaced token is in front. -/
lemma front_retoken (tokens : List Token) :
    front (r.token eof) (tokens.map r.token) = r.token (front eof tokens) := by
  cases tokens with
  | nil => rfl
  | cons token rest => rfl

/-- A replaced token begins what the token begins. -/
lemma leading_retoken (token : Token) :
    Leading.ofToken? (r.token token) = Leading.ofToken? token := by
  rw [Leading.ofToken?, h.token_kind, h.token_literal, Leading.ofToken?]

/-- A place is filled by the token that has taken the place of another one. -/
lemma expect_retoken {g : Token → Token} (place : Expectation)
    (becomes : ∀ token, token.kind = place.kind → r.token token = g token) (tokens : List Token) :
    (expect (r.token eof) place (tokens.map r.token)).result =
      (expect eof place tokens).result.retoken r.token g := by
  cases tokens with
  | nil => rfl
  | cons token rest =>
    rw [List.map_cons, result_expect_cons, result_expect_cons, h.token_kind]
    split
    · next kind => rw [becomes token kind, Parsed.retoken, List.map_nil]
    · rfl

/-- A name is read where a name has to stand. -/
lemma expectName_retoken (place : Expectation) (isName : place.kind = .identifier)
    (tokens : List Token) :
    (expect (r.token eof) place (tokens.map r.token)).result =
      (expect eof place tokens).result.retoken r.token r.name :=
  expect_retoken h eof place (fun _ kind => Relabelling.token_of_identifier (kind.trans isName)) tokens

/-- No name is read where something else has to stand. -/
lemma expectMark_retoken (place : Expectation) (isMark : place.kind ≠ .identifier)
    (tokens : List Token) :
    (expect (r.token eof) place (tokens.map r.token)).result =
      (expect eof place tokens).result.retoken r.token r.mark :=
  expect_retoken h eof place (fun _ kind => Relabelling.token_of_ne (kind ▸ isMark)) tokens

omit h in
/-- What goes on with an expression is no name. -/
lemma kind_ne_of_continuation {token : Token} {c : Continuation}
    (found : Continuation.ofKind? token.kind = some c) : token.kind ≠ .identifier := by
  intro kind
  rw [kind] at found
  cases found

omit h in
/-- Nor is a prefix operator. -/
lemma kind_ne_of_unary {token : Token} {op : PrefixOp}
    (leading : Leading.ofToken? token = some (.unary op)) : token.kind ≠ .identifier := by
  intro kind
  have isUnary : Grammar.Unary token.kind op := Grammar.leading_cases leading
  rw [kind] at isUnary
  cases isUnary

omit h in
/-- The objection to one argument or parameter too many is to the token in its place. -/
lemma limit_retoken (cause : SyntaxCause) (tokens : List Token) (count : Nat) :
    (if argumentLimit ≤ count then
        [SyntaxError.mk cause (front (r.token eof) (tokens.map r.token))] else []) =
      (if argumentLimit ≤ count then [SyntaxError.mk cause (front eof tokens)] else []).map
        (SyntaxError.retoken r.token) := by
  split
  · rw [front_retoken]
    rfl
  · rfl

/-- The rules of expressions build relabelled trees from replaced tokens. -/
lemma expression_retoken :
    (∀ power tokens, (expression (r.token eof) power (tokens.map r.token)).result =
      (expression eof power tokens).result.retoken r.token (Expr.relabel r)) ∧
    (∀ power left tokens,
      (continued (r.token eof) power (left.relabel r) (tokens.map r.token)).result =
        (continued eof power left tokens).result.retoken r.token (Expr.relabel r)) ∧
    (∀ left token c tokens, token.kind ≠ .identifier →
      (extended (r.token eof) (left.relabel r) (r.token token) c (tokens.map r.token)).result =
        (extended eof left token c tokens).result.retoken r.token (Expr.relabel r)) ∧
    (∀ count tokens, (arguments (r.token eof) count (tokens.map r.token)).result =
      (arguments eof count tokens).result.retoken r.token (Expr.relabelAll r)) ∧
    (∀ tokens, (operand (r.token eof) (tokens.map r.token)).result =
      (operand eof tokens).result.retoken r.token (Expr.relabel r)) := by
  apply expression.mutual_induct eof
  case case1 =>
    intro power tokens operand continued
    rw [result_expression, result_expression]
    exact Bounded.retoken_bind operand continued
  case case2 =>
    intro power left
    rw [List.map_nil, result_continued_nil, result_continued_nil]
    rfl
  case case3 =>
    intro power left token rest none
    rw [List.map_cons, result_continued_cons, result_continued_cons, h.token_kind, none]
    rfl
  case case4 =>
    intro power left token rest c found lt
    rw [List.map_cons, result_continued_cons, result_continued_cons, h.token_kind, found]
    dsimp only
    rw [if_pos lt, if_pos lt]
    rfl
  case case5 =>
    intro power left token rest c found le extended continued
    rw [List.map_cons, result_continued_cons, result_continued_cons, h.token_kind, found]
    dsimp only
    rw [if_neg le, if_neg le]
    exact Bounded.retoken_bind (extended (kind_ne_of_continuation found)) continued
  case case6 =>
    intro left token tokens closing _
    rw [result_extended_call, result_extended_call, front_retoken, h.token_kind, if_pos closing,
      if_pos closing]
    exact Parsed.retoken_map (expectMark_retoken h eof _ (by decide) tokens) fun paren => rfl
  case case7 =>
    intro left token tokens notClosing arguments _
    rw [result_extended_call, result_extended_call, front_retoken, h.token_kind,
      if_neg notClosing, if_neg notClosing]
    refine Parsed.retoken_bind arguments fun es rest => ?_
    exact Parsed.retoken_map (expectMark_retoken h eof _ (by decide) rest) fun paren => rfl
  case case8 =>
    intro left token tokens op right isMark
    rw [result_extended_binary, result_extended_binary, Relabelling.token_of_ne isMark]
    exact Parsed.retoken_map right fun value => rfl
  case case9 =>
    intro left token tokens op right isMark
    rw [result_extended_logical, result_extended_logical, Relabelling.token_of_ne isMark]
    exact Parsed.retoken_map right fun value => rfl
  case case10 =>
    intro left token tokens right _
    rw [result_extended_assign, result_extended_assign]
    refine Parsed.retoken_bind right fun value rest => ?_
    cases left with
    | ident name => rfl
    | _ => rfl
  case case11 =>
    intro count tokens first others
    rw [result_arguments, result_arguments, limit_retoken, Parsed.retoken_after]
    congr 1
    refine Bounded.retoken_bind first fun e rest shorter => ?_
    cases rest with
    | nil => rfl
    | cons comma rest =>
      rw [List.map_cons]
      dsimp only
      rw [h.token_kind]
      split
      · exact Parsed.retoken_map (others comma rest shorter) fun es => rfl
      · rfl
  case case12 =>
    rw [List.map_nil, result_operand_nil, result_operand_nil]
    rfl
  case case13 =>
    intro token rest none
    rw [List.map_cons, result_operand_cons, result_operand_cons, leading_retoken h, none]
    rfl
  case case14 =>
    intro token rest atom leading
    rw [List.map_cons, result_operand_cons, result_operand_cons, leading_retoken h, leading]
    rfl
  case case15 =>
    intro token rest leading
    rw [List.map_cons, result_operand_cons, result_operand_cons, leading_retoken h, leading]
    dsimp only
    rw [Relabelling.token_of_identifier (Grammar.leading_cases leading)]
    rfl
  case case16 =>
    intro token rest op leading inner
    rw [List.map_cons, result_operand_cons, result_operand_cons, leading_retoken h, leading]
    dsimp only
    rw [Relabelling.token_of_ne (kind_ne_of_unary leading)]
    exact Parsed.retoken_map inner fun e => rfl
  case case17 =>
    intro token rest leading inner
    rw [List.map_cons, result_operand_cons, result_operand_cons, leading_retoken h, leading]
    refine Parsed.retoken_bind inner fun e rest => ?_
    exact Parsed.retoken_map (expectMark_retoken h eof _ (by decide) rest) fun _ => rfl

/-- An expression is read over replaced tokens with the same result. -/
lemma whole_retoken (tokens : List Token) :
    (expression (r.token eof) 0 (tokens.map r.token)).result =
      (expression eof 0 tokens).result.retoken r.token (Expr.relabel r) :=
  (expression_retoken h eof).1 0 tokens

/-- An expression with a token behind it is read over replaced tokens with the same result. -/
lemma closed_retoken (place : Expectation) (isMark : place.kind ≠ .identifier)
    (tokens : List Token) :
    (closed (r.token eof) place (tokens.map r.token)).result =
      (closed eof place tokens).result.retoken r.token (Expr.relabel r) := by
  rw [result_closed, result_closed]
  refine Parsed.retoken_bind (whole_retoken h eof tokens) fun e rest => ?_
  exact Parsed.retoken_map (expectMark_retoken h eof place isMark rest) fun _ => rfl

/-- An expression that may be missing is read over replaced tokens with the same result. -/
lemma optional_retoken (place : Expectation) (isMark : place.kind ≠ .identifier)
    (tokens : List Token) :
    (optional (r.token eof) place (tokens.map r.token)).result =
      (optional eof place tokens).result.retoken r.token
        (Option.map (Expr.relabel r)) := by
  rw [result_optional, result_optional, front_retoken, h.token_kind]
  split
  · exact Parsed.retoken_map (expectMark_retoken h eof place isMark tokens) fun _ => rfl
  · refine Parsed.retoken_bind (whole_retoken h eof tokens) fun e rest => ?_
    exact Parsed.retoken_map (expectMark_retoken h eof place isMark rest) fun _ => rfl

/-- An expression between two tokens is read over replaced tokens with the same result. -/
lemma enclosed_retoken (start stop : Expectation) (isStart : start.kind ≠ .identifier)
    (isStop : stop.kind ≠ .identifier) (tokens : List Token) :
    (enclosed (r.token eof) start stop (tokens.map r.token)).result =
      (enclosed eof start stop tokens).result.retoken r.token (Expr.relabel r) := by
  rw [result_enclosed, result_enclosed]
  exact Parsed.retoken_bind (expectMark_retoken h eof start isStart tokens) fun _ rest =>
    closed_retoken h eof stop isStop rest

/-- A variable declaration is read over replaced tokens with the same result. -/
lemma variableDeclaration_retoken (tokens : List Token) :
    (variableDeclaration (r.token eof) (tokens.map r.token)).result =
      (variableDeclaration eof tokens).result.retoken r.token (Stmt.relabel r) := by
  rw [result_variableDeclaration, result_variableDeclaration]
  refine Parsed.retoken_bind (expectName_retoken h eof _ rfl tokens) fun name rest => ?_
  cases rest with
  | nil => rfl
  | cons token rest =>
    rw [List.map_cons]
    dsimp only
    rw [h.token_kind]
    split
    · exact Parsed.retoken_map (closed_retoken h eof _ (by decide) rest) fun e => rfl
    · exact Parsed.retoken_map (expectMark_retoken h eof _ (by decide) (token :: rest)) fun _ => rfl

/-- Parameters are read over replaced tokens with the same result. -/
lemma parameters_retoken (count : Nat) (tokens : List Token) :
    (parameters (r.token eof) count (tokens.map r.token)).result =
      (parameters eof count tokens).result.retoken r.token (List.map r.name) := by
  induction count, tokens using parameters.induct with
  | case1 count tokens others =>
    rw [result_parameters, result_parameters, limit_retoken, Parsed.retoken_after]
    congr 1
    refine Bounded.retoken_bind (expectName_retoken h eof _ rfl tokens) fun name rest shorter => ?_
    cases rest with
    | nil => rfl
    | cons comma rest =>
      rw [List.map_cons]
      dsimp only
      rw [h.token_kind]
      split
      · exact Parsed.retoken_map (others comma rest shorter) fun names => rfl
      · rfl

/-- Parameters with their parenthesis are read over replaced tokens with the same result. -/
lemma parameterList_retoken (tokens : List Token) :
    (parameterList (r.token eof) (tokens.map r.token)).result =
      (parameterList eof tokens).result.retoken r.token (List.map r.name) := by
  rw [result_parameterList, result_parameterList, front_retoken, h.token_kind]
  split
  · exact Parsed.retoken_map (expectMark_retoken h eof _ (by decide) tokens) fun _ => rfl
  · refine Parsed.retoken_bind (parameters_retoken h eof 0 tokens) fun names rest => ?_
    exact Parsed.retoken_map (expectMark_retoken h eof _ (by decide) rest) fun _ => rfl

/-- The name and the parameters of a function are read over replaced tokens with the same result. -/
lemma signature_retoken (tokens : List Token) :
    (signature (r.token eof) (tokens.map r.token)).result =
      (signature eof tokens).result.retoken r.token (Prod.map r.name (List.map r.name)) := by
  rw [result_signature, result_signature]
  refine Parsed.retoken_bind (expectName_retoken h eof _ rfl tokens) fun name rest => ?_
  refine Parsed.retoken_bind (expectMark_retoken h eof _ (by decide) rest) fun _ rest => ?_
  refine Parsed.retoken_bind (parameterList_retoken h eof rest) fun names rest => ?_
  exact Parsed.retoken_map (expectMark_retoken h eof _ (by decide) rest) fun _ => rfl

/-- The initializer of a loop is read over replaced tokens with the same result. -/
lemma initializer_retoken (tokens : List Token) :
    (initializer (r.token eof) (tokens.map r.token)).result =
      (initializer eof tokens).result.retoken r.token
        (Option.map (Stmt.relabel r)) := by
  cases tokens with
  | nil =>
    rw [List.map_nil, result_initializer_nil, result_initializer_nil]
    exact Parsed.retoken_map (closed_retoken h eof _ (by decide) []) fun e => rfl
  | cons token rest =>
    rw [List.map_cons, result_initializer_cons, result_initializer_cons, h.token_kind]
    split
    · rfl
    · split
      · exact Parsed.retoken_map (variableDeclaration_retoken h eof rest) fun s => rfl
      · exact Parsed.retoken_map (closed_retoken h eof _ (by decide) (token :: rest)) fun e => rfl

/-- The parts of a loop are read over replaced tokens with the same result. -/
lemma clauses_retoken (tokens : List Token) :
    (clauses (r.token eof) (tokens.map r.token)).result =
      (clauses eof tokens).result.retoken r.token (ForClauses.relabel r) := by
  rw [result_clauses, result_clauses]
  refine Parsed.retoken_bind (expectMark_retoken h eof _ (by decide) tokens) fun _ rest => ?_
  refine Parsed.retoken_bind (initializer_retoken h eof rest) fun initializer rest => ?_
  refine Parsed.retoken_bind (optional_retoken h eof _ (by decide) rest) fun condition rest => ?_
  exact Parsed.retoken_map (optional_retoken h eof _ (by decide) rest) fun increment => rfl

/-- Reading resumes at the same place. -/
lemma resume_retoken (tokens : List Token) :
    resume (tokens.map r.token) = (resume tokens).map r.token := by
  induction tokens with
  | nil => rfl
  | cons token rest ih =>
    have same : (rest.map r.token).head?.any (·.kind.startsStatement) =
        rest.head?.any (·.kind.startsStatement) := by
      cases rest with
      | nil => rfl
      | cons next others => exact congrArg Kind.startsStatement (h.token_kind next)
    rw [List.map_cons, resume, resume, h.token_kind, same]
    split
    · rfl
    · exact ih

/-- What is left after recovery is made of replaced tokens. -/
lemma recovered_retoken {p q : Parsed Stmt} {statement? : Option Stmt} {rest : List Token}
    {errors : List SyntaxError}
    (same : q = p.retoken r.token (Stmt.relabel r))
    (found : recovered p = (statement?, rest, errors)) :
    recovered q = (statement?.map (Stmt.relabel r), rest.map r.token,
      errors.map (SyntaxError.retoken r.token)) := by
  subst same
  cases p with
  | done statement left reported =>
    cases found
    rfl
  | failed error left reported =>
    cases found
    rw [Parsed.retoken, recovered, resume_retoken h, List.map_append]
    rfl

/-- The rules of statements build relabelled trees from replaced tokens. -/
lemma declaration_retoken :
    (∀ tokens, (declaration (r.token eof) (tokens.map r.token)).result =
      (declaration eof tokens).result.retoken r.token (Stmt.relabel r)) ∧
    (∀ tokens, (function (r.token eof) (tokens.map r.token)).result =
      (function eof tokens).result.retoken r.token (Stmt.relabel r)) ∧
    (∀ tokens, (block (r.token eof) (tokens.map r.token)).result =
      (block eof tokens).result.retoken r.token (Stmt.relabelAll r)) ∧
    (∀ tokens, (statement (r.token eof) (tokens.map r.token)).result =
      (statement eof tokens).result.retoken r.token (Stmt.relabel r)) ∧
    (∀ condition tokens,
      (branches (r.token eof) (condition.relabel r) (tokens.map r.token)).result =
        (branches eof condition tokens).result.retoken r.token (Stmt.relabel r)) := by
  apply declaration.mutual_induct eof
  case case1 =>
    intro statement
    rw [List.map_nil, result_declaration_nil, result_declaration_nil]
    exact statement
  case case2 =>
    intro token rest isFun function
    rw [List.map_cons, result_declaration_cons, result_declaration_cons, h.token_kind,
      if_pos isFun, if_pos isFun]
    exact function
  case case3 =>
    intro token rest notFun isVar
    rw [List.map_cons, result_declaration_cons, result_declaration_cons, h.token_kind,
      if_neg notFun, if_neg notFun, if_pos isVar, if_pos isVar]
    exact variableDeclaration_retoken h eof rest
  case case4 =>
    intro token rest notFun notVar statement
    rw [List.map_cons, result_declaration_cons, result_declaration_cons, h.token_kind,
      if_neg notFun, if_neg notFun, if_neg notVar, if_neg notVar]
    exact statement
  case case5 =>
    intro tokens block
    rw [result_function, result_function]
    refine Bounded.retoken_bind (signature_retoken h eof tokens) fun signature rest shorter => ?_
    obtain ⟨name, names⟩ := signature
    exact Parsed.retoken_map (block rest shorter) fun body => rfl
  case case6 =>
    rw [List.map_nil, result_block_nil, result_block_nil]
    rfl
  case case7 =>
    intro token rest isBrace
    rw [List.map_cons, result_block_cons, result_block_cons, h.token_kind, if_pos isBrace,
      if_pos isBrace]
    rfl
  case case8 =>
    intro token rest notBrace statement? rest' errors shorter found declaration block
    have found := recovered_eq found
    rw [List.map_cons, result_block_cons, result_block_cons, h.token_kind, if_neg notBrace,
      if_neg notBrace, ← List.map_cons, recovered_retoken h declaration found, found]
    dsimp only
    rw [Parsed.retoken_after]
    congr 1
    refine Parsed.retoken_map block fun body => ?_
    rw [Stmt.relabelAll_eq, Stmt.relabelAll_eq, List.map_append, Option.toList_map]
  case case9 =>
    rw [List.map_nil, result_statement_nil, result_statement_nil]
    exact Parsed.retoken_map (closed_retoken h eof _ (by decide) []) fun e => rfl
  case case10 =>
    intro token rest kind
    rw [List.map_cons, result_statement_cons, result_statement_cons, h.token_kind, kind]
    exact Parsed.retoken_map (closed_retoken h eof _ (by decide) rest) fun e => rfl
  case case11 =>
    intro token rest kind
    have isMark : token.kind ≠ .identifier := by rw [kind]; decide
    rw [List.map_cons, result_statement_cons, result_statement_cons, h.token_kind, kind,
      Relabelling.token_of_ne isMark]
    exact Parsed.retoken_map (optional_retoken h eof _ (by decide) rest) fun value => rfl
  case case12 =>
    intro token rest kind block
    rw [List.map_cons, result_statement_cons, result_statement_cons, h.token_kind, kind]
    exact Parsed.retoken_map block fun body => rfl
  case case13 =>
    intro token rest kind branches
    rw [List.map_cons, result_statement_cons, result_statement_cons, h.token_kind, kind]
    exact Bounded.retoken_bind (enclosed_retoken h eof _ _ (by decide) (by decide) rest) branches
  case case14 =>
    intro token rest kind statement
    rw [List.map_cons, result_statement_cons, result_statement_cons, h.token_kind, kind]
    refine Bounded.retoken_bind (enclosed_retoken h eof _ _ (by decide) (by decide) rest) fun condition rest shorter => ?_
    exact Parsed.retoken_map (statement rest shorter) fun s => rfl
  case case15 =>
    intro token rest kind statement
    rw [List.map_cons, result_statement_cons, result_statement_cons, h.token_kind, kind]
    refine Bounded.retoken_bind (clauses_retoken h eof rest) fun clauses rest shorter => ?_
    exact Parsed.retoken_map (statement rest shorter) fun s => (clauses.relabel_statement _ s).symm
  case case16 =>
    intro token rest _ _ _ _ _ _
    rw [List.map_cons, result_statement_cons, result_statement_cons, h.token_kind]
    split
    case h_7 => exact Parsed.retoken_map (closed_retoken h eof _ (by decide) (token :: rest)) fun e => rfl
    all_goals contradiction
  case case17 =>
    intro condition tokens statement others
    rw [result_branches, result_branches]
    refine Bounded.retoken_bind statement fun thenBranch rest shorter => ?_
    cases rest with
    | nil => rfl
    | cons token rest =>
      rw [List.map_cons]
      dsimp only
      rw [h.token_kind]
      split
      · exact Parsed.retoken_map (others [] token rest shorter) fun elseBranch => rfl
      · rfl

/-- The declarations of replaced tokens are the relabelled ones. -/
lemma declarations_retoken (tokens : List Token) :
    declarations (r.token eof) (tokens.map r.token) =
      (Stmt.relabelAll r (declarations eof tokens).1,
        (declarations eof tokens).2.map (SyntaxError.retoken r.token)) := by
  induction size : tokens.length using Nat.strongRecOn generalizing tokens with
  | ind n ih =>
    cases tokens with
    | nil =>
      rw [List.map_nil, declarations_nil, declarations_nil]
      rfl
    | cons token rest =>
      have same := (declaration_retoken h eof).1 (token :: rest)
      generalize left : recover (Nat.succ_pos _) (declaration eof (token :: rest)) = kept
      obtain ⟨statement?, rest', errors, shorter⟩ := kept
      have found := recovered_eq left
      rw [List.map_cons, declarations_cons, declarations_cons, ← List.map_cons,
        recovered_retoken h same found, found]
      dsimp only
      rw [ih rest'.length (size ▸ shorter) rest' rfl, Stmt.relabelAll_eq, Stmt.relabelAll_eq,
        List.map_append, List.map_append, Option.toList_map]

variable {tokens : List Token}

/-- The tokens before the end mark are replaced one by one. -/
lemma beforeEnd_retoken : beforeEnd (tokens.map r.token) = (beforeEnd tokens).map r.token := by
  have kinds : (fun t : Token => decide (t.kind ≠ .eof)) ∘ r.token =
      fun t => decide (t.kind ≠ .eof) := by
    funext t
    rw [Function.comp_apply, h.token_kind]
  rw [beforeEnd, List.takeWhile_map, kinds, beforeEnd]

/-- The end mark is replaced if there is one. -/
lemma endOf_retoken (ended : ∃ token ∈ tokens, token.kind = .eof) :
    endOf (tokens.map r.token) = r.token (endOf tokens) := by
  have kinds : (fun t : Token => decide (t.kind = .eof)) ∘ r.token =
      fun t => decide (t.kind = .eof) := by
    funext t
    rw [Function.comp_apply, h.token_kind]
  obtain ⟨token, mem, isEnd⟩ := ended
  have some : (tokens.find? (·.kind = .eof)).isSome :=
    List.find?_isSome.mpr ⟨token, mem, decide_eq_true isEnd⟩
  obtain ⟨mark, found⟩ := Option.isSome_iff_exists.mp some
  rw [endOf, List.find?_map, kinds, found, endOf, found]
  rfl

end Parse

/-- A program of replaced tokens is the relabelled program, and the objections are to the tokens
that have taken the place of others. -/
lemma Program.parse_token {r : Relabelling} (h : r.Faithful) {tokens : List Token}
    (ended : Parse.endOf (tokens.map r.token) = r.token (Parse.endOf tokens)) :
    Program.parse (tokens.map r.token) =
      (Stmt.relabelAll r (Program.parse tokens).1,
        (Program.parse tokens).2.map (SyntaxError.retoken r.token)) := by
  rw [Program.parse, Program.parseLoops, Parse.beforeEnd_retoken h, ended,
    Parse.declarations_retoken h]
  exact Prod.ext (Stmt.relabelAll_desugarAll r _).symm rfl

/-- A replacement that the parser does not notice replaces the tokens of the program. -/
theorem Program.parse_retoken (f : Replacement) {tokens : List Token}
    (ended : ∃ token ∈ tokens, token.kind = .eof) :
    Program.parse (tokens.map f.token) =
      (Stmt.relabelAll f.relabelling (Program.parse tokens).1,
        (Program.parse tokens).2.map (SyntaxError.retoken f.token)) := by
  have faithful : f.relabelling.Faithful :=
    ⟨f.kind_token, f.literal_token, f.kind_token, f.literal_token⟩
  have parsed := parse_token faithful (Parse.endOf_retoken faithful ended)
  rw [Replacement.relabelling, Relabelling.uniform_token] at parsed
  exact parsed

end Lox
