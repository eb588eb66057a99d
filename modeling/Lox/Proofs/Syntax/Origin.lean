import Lox.Proofs.Syntax.Rules
import Lox.Proofs.Syntax.Tokens

/-!
# Where tokens come from

The parser makes no tokens up: those of the trees that it builds and those to which it objects are
tokens that it has read, or the end mark.
-/

namespace Lox

namespace Parsed

variable {α β : Type} {T : Token → Prop} {Q : α → Prop} {R : β → Prop}

/-- The tokens left and the tokens objected to are among certain ones, and the value has a property
if there is one. -/
def Drawn (T : Token → Prop) (Q : α → Prop) : Parsed α → Prop
  | done value rest errors => Q value ∧ (∀ t ∈ rest, T t) ∧ ∀ e ∈ errors, T e.token
  | failed error rest errors => T error.token ∧ (∀ t ∈ rest, T t) ∧ ∀ e ∈ errors, T e.token

/-- Earlier errors may be about certain tokens, too. -/
lemma Drawn.after {p : Parsed α} (h : p.Drawn T Q) {earlier : List SyntaxError}
    (before : ∀ e ∈ earlier, T e.token) : (p.after earlier).Drawn T Q := by
  have both : ∀ {errors : List SyntaxError}, (∀ e ∈ errors, T e.token) →
      ∀ e ∈ earlier ++ errors, T e.token :=
    fun later => List.forall_mem_append.mpr ⟨before, later⟩
  cases p with
  | done value rest errors => exact ⟨h.1, h.2.1, both h.2.2⟩
  | failed error rest errors => exact ⟨h.1, h.2.1, both h.2.2⟩

/-- What goes on behind a rule draws on what the rule has left. -/
lemma Drawn.bind {p : Parsed α} {next : α → List Token → Parsed β} (h : p.Drawn T Q)
    (behind : ∀ value rest, (∀ t ∈ rest, T t) → Q value → (next value rest).Drawn T R) :
    (p.bind next).Drawn T R := by
  cases p with
  | done value rest errors => exact (behind value rest h.2.1 h.1).after h.2.2
  | failed error rest errors => exact h

/-- What is made of the value has a property if the value's own property says so. -/
lemma Drawn.map {p : Parsed α} {f : α → β} (h : p.Drawn T Q)
    (behind : ∀ value, Q value → R (f value)) : (p.map f).Drawn T R :=
  h.bind fun value _ left q => ⟨behind value q, left, List.forall_mem_nil _⟩

end Parsed

/-- The tokens left by a rule that is done are within its bound. -/
lemma Bounded.drawn_bind {α β : Type} {n : Nat} {T : Token → Prop} {Q : α → Prop} {R : β → Prop}
    {p : Bounded α n} {next : α → List Token → Parsed β} (h : p.result.Drawn T Q)
    (behind : ∀ value rest, rest.length < n → (∀ t ∈ rest, T t) → Q value →
      (next value rest).Drawn T R) :
    (p.result.bind next).Drawn T R := by
  obtain ⟨result, within⟩ := p
  cases result with
  | done value rest errors => exact (behind value rest within h.2.1 h.1).after h.2.2
  | failed error rest errors => exact h

namespace Parse

variable {T : Token → Prop} {eof : Token} (atEnd : T eof)

/-- Certain tokens only stand in the expression. -/
abbrev Exprs (T : Token → Prop) (e : Expr) : Prop :=
  ∀ t ∈ e.tokens, T t

/-- Certain tokens only stand in the statement. -/
abbrev Stmts (T : Token → Prop) (s : Stmt) : Prop :=
  ∀ t ∈ s.tokens, T t

section

include atEnd

/-- The token in front is one of certain tokens if those given are. -/
lemma front_drawn {tokens : List Token} (given : ∀ t ∈ tokens, T t) : T (front eof tokens) := by
  cases tokens with
  | nil => exact atEnd
  | cons token rest => exact given token List.mem_cons_self

/-- An expected token is one of certain tokens if those given are. -/
lemma expect_drawn {tokens : List Token} (place : Expectation) (given : ∀ t ∈ tokens, T t) :
    (expect eof place tokens).result.Drawn T T := by
  cases tokens with
  | nil => exact ⟨atEnd, given, List.forall_mem_nil _⟩
  | cons token rest =>
    have split := List.forall_mem_cons.mp given
    rw [result_expect_cons]
    by_cases fits : token.kind = place.kind
    · rw [if_pos fits]
      exact ⟨split.1, split.2, List.forall_mem_nil _⟩
    · rw [if_neg fits]
      exact ⟨split.1, given, List.forall_mem_nil _⟩

/-- The objection to one argument or parameter too many is to the token in front of it. -/
lemma limit_drawn {tokens : List Token} (given : ∀ t ∈ tokens, T t) (cause : SyntaxCause)
    (count : Nat) :
    ∀ e ∈ if argumentLimit ≤ count then [SyntaxError.mk cause (front eof tokens)] else [],
      T e.token := by
  split
  · exact List.forall_mem_singleton.mpr (front_drawn atEnd given)
  · exact List.forall_mem_nil _

/-- The rules of expressions make no tokens up. -/
lemma expression_drawn :
    (∀ power tokens, (∀ t ∈ tokens, T t) →
      (expression eof power tokens).result.Drawn T (Exprs T)) ∧
    (∀ power left tokens, Exprs T left → (∀ t ∈ tokens, T t) →
      (continued eof power left tokens).result.Drawn T (Exprs T)) ∧
    (∀ left token c tokens, Exprs T left → T token → (∀ t ∈ tokens, T t) →
      (extended eof left token c tokens).result.Drawn T (Exprs T)) ∧
    (∀ count tokens, (∀ t ∈ tokens, T t) →
      (arguments eof count tokens).result.Drawn T fun es => ∀ t ∈ Expr.tokensAll es, T t) ∧
    (∀ tokens, (∀ t ∈ tokens, T t) → (operand eof tokens).result.Drawn T (Exprs T)) := by
  -- The induction follows the parser, and what is left by one rule is given to the next.
  apply expression.mutual_induct eof
  case case1 =>
    intro power tokens operand continued given
    rw [result_expression]
    refine Bounded.drawn_bind (operand given) fun left rest shorter left_given drawn => ?_
    exact continued left rest shorter drawn left_given
  case case2 =>
    intro power left drawn given
    rw [result_continued_nil]
    exact ⟨drawn, given, List.forall_mem_nil _⟩
  case case3 =>
    intro power left token rest none drawn given
    rw [result_continued_cons, none]
    exact ⟨drawn, given, List.forall_mem_nil _⟩
  case case4 =>
    intro power left token rest c found lt drawn given
    rw [result_continued_cons, found]
    dsimp only
    rw [if_pos lt]
    exact ⟨drawn, given, List.forall_mem_nil _⟩
  case case5 =>
    intro power left token rest c found le extended continued drawn given
    have split := List.forall_mem_cons.mp given
    rw [result_continued_cons, found]
    dsimp only
    rw [if_neg le]
    refine Bounded.drawn_bind (extended drawn split.1 split.2) ?_
    exact fun left rest' shorter given drawn => continued left rest' shorter drawn given
  case case6 =>
    intro left token tokens closing drawn _ given
    rw [result_extended_call, if_pos closing]
    refine (expect_drawn atEnd _ given).map fun paren isGiven => ?_
    simpa only [Exprs, Expr.tokens, Expr.tokensAll, List.forall_mem_cons, List.append_nil]
      using And.intro isGiven drawn
  case case7 =>
    intro left token tokens notClosing arguments drawn _ given
    rw [result_extended_call, if_neg notClosing]
    refine (arguments given).bind fun es rest given all => ?_
    refine (expect_drawn atEnd _ given).map fun paren isGiven => ?_
    simp only [Exprs, Expr.tokens, List.forall_mem_cons, List.forall_mem_append]
    exact ⟨isGiven, drawn, all⟩
  case case8 =>
    intro left token tokens op right drawn isGiven given
    rw [result_extended_binary]
    refine (right given).map fun value inside => ?_
    simp only [Exprs, Expr.tokens, List.forall_mem_cons, List.forall_mem_append]
    exact ⟨isGiven, drawn, inside⟩
  case case9 =>
    intro left token tokens op right drawn isGiven given
    rw [result_extended_logical]
    refine (right given).map fun value inside => ?_
    simp only [Exprs, Expr.tokens, List.forall_mem_cons, List.forall_mem_append]
    exact ⟨isGiven, drawn, inside⟩
  case case10 =>
    intro left token tokens right drawn isGiven given
    rw [result_extended_assign]
    refine (right given).bind fun value rest given inside => ?_
    split
    · rename_i name
      have isName := drawn name List.mem_cons_self
      refine ⟨?_, given, List.forall_mem_nil _⟩
      simp only [Exprs, Expr.tokens, List.forall_mem_cons]
      exact ⟨isName, inside⟩
    · exact ⟨drawn, given, List.forall_mem_singleton.mpr isGiven⟩
  case case11 =>
    intro count tokens first others given
    rw [result_arguments]
    refine Parsed.Drawn.after ?_ (limit_drawn atEnd given _ count)
    refine Bounded.drawn_bind (first given) fun e rest shorter given drawn => ?_
    have single : ∀ t ∈ Expr.tokensAll [e], T t := by
      simpa only [Expr.tokensAll, List.append_nil] using drawn
    cases rest with
    | nil => exact ⟨single, given, List.forall_mem_nil _⟩
    | cons comma rest =>
      dsimp only
      split
      · refine (others comma rest shorter (List.forall_mem_cons.mp given).2).map fun es all => ?_
        simp only [Expr.tokensAll, List.forall_mem_append]
        exact ⟨drawn, all⟩
      · exact ⟨single, given, List.forall_mem_nil _⟩
  case case12 =>
    intro given
    rw [result_operand_nil]
    exact ⟨atEnd, given, List.forall_mem_nil _⟩
  case case13 =>
    intro token rest none given
    rw [result_operand_cons, none]
    exact ⟨given token List.mem_cons_self, given, List.forall_mem_nil _⟩
  case case14 =>
    intro token rest atom leading given
    rw [result_operand_cons, leading]
    exact ⟨List.forall_mem_nil _, (List.forall_mem_cons.mp given).2, List.forall_mem_nil _⟩
  case case15 =>
    intro token rest leading given
    have split := List.forall_mem_cons.mp given
    rw [result_operand_cons, leading]
    exact ⟨List.forall_mem_singleton.mpr split.1, split.2, List.forall_mem_nil _⟩
  case case16 =>
    intro token rest op leading inner given
    have split := List.forall_mem_cons.mp given
    rw [result_operand_cons, leading]
    exact (inner split.2).map fun value inside => List.forall_mem_cons.mpr ⟨split.1, inside⟩
  case case17 =>
    intro token rest leading inner given
    rw [result_operand_cons, leading]
    refine (inner (List.forall_mem_cons.mp given).2).bind fun value rest given inside => ?_
    exact (expect_drawn atEnd _ given).map fun _ _ => inside

/-- The tokens of an expression are among those given. -/
lemma whole_drawn {tokens : List Token} (given : ∀ t ∈ tokens, T t) :
    (expression eof 0 tokens).result.Drawn T (Exprs T) :=
  (expression_drawn atEnd).1 0 tokens given

/-- The tokens of an expression with a token behind it are among those given. -/
lemma closed_drawn {tokens : List Token} (place : Expectation) (given : ∀ t ∈ tokens, T t) :
    (closed eof place tokens).result.Drawn T (Exprs T) := by
  rw [result_closed]
  refine (whole_drawn atEnd given).bind fun e rest given drawn => ?_
  exact (expect_drawn atEnd place given).map fun _ _ => drawn

/-- The tokens of an expression that may be missing are among those given. -/
lemma optional_drawn {tokens : List Token} (place : Expectation) (given : ∀ t ∈ tokens, T t) :
    (optional eof place tokens).result.Drawn T fun e? =>
      ∀ t ∈ Expr.tokensAll e?.toList, T t := by
  rw [result_optional]
  split
  · exact (expect_drawn atEnd place given).map fun _ _ => List.forall_mem_nil _
  · refine (whole_drawn atEnd given).bind fun e rest given drawn => ?_
    refine (expect_drawn atEnd place given).map fun _ _ => ?_
    simpa only [Option.toList_some, Expr.tokensAll, List.append_nil] using drawn

/-- The tokens of an expression between two tokens are among those given. -/
lemma enclosed_drawn {tokens : List Token} (start stop : Expectation) (given : ∀ t ∈ tokens, T t) :
    (enclosed eof start stop tokens).result.Drawn T (Exprs T) := by
  rw [result_enclosed]
  exact (expect_drawn atEnd start given).bind fun _ rest given _ => closed_drawn atEnd stop given

/-- The tokens of a variable declaration are among those given. -/
lemma variableDeclaration_drawn {tokens : List Token} (given : ∀ t ∈ tokens, T t) :
    (variableDeclaration eof tokens).result.Drawn T (Stmts T) := by
  rw [result_variableDeclaration]
  refine (expect_drawn atEnd _ given).bind fun name rest given isName => ?_
  cases rest with
  | nil => exact ⟨atEnd, given, List.forall_mem_nil _⟩
  | cons token rest =>
    dsimp only
    split
    · refine (closed_drawn atEnd _ (List.forall_mem_cons.mp given).2).map fun e drawn => ?_
      simp only [Stmts, Stmt.tokens, Option.toList_some, Expr.tokensAll, List.append_nil,
        List.forall_mem_cons]
      exact ⟨isName, drawn⟩
    · exact (expect_drawn atEnd _ given).map fun _ _ => List.forall_mem_singleton.mpr isName

/-- Parameters are among the tokens given. -/
lemma parameters_drawn (count : Nat) (tokens : List Token) (given : ∀ t ∈ tokens, T t) :
    (parameters eof count tokens).result.Drawn T fun ps => ∀ t ∈ ps, T t := by
  induction count, tokens using parameters.induct with
  | case1 count tokens others =>
    rw [result_parameters]
    refine Parsed.Drawn.after ?_ (limit_drawn atEnd given _ count)
    refine Bounded.drawn_bind (expect_drawn atEnd _ given) fun name rest shorter given isName => ?_
    have single := List.forall_mem_singleton.mpr isName
    cases rest with
    | nil => exact ⟨single, given, List.forall_mem_nil _⟩
    | cons comma rest =>
      dsimp only
      split
      · have later := others comma rest shorter (List.forall_mem_cons.mp given).2
        exact later.map fun ps drawn => List.forall_mem_cons.mpr ⟨isName, drawn⟩
      · exact ⟨single, given, List.forall_mem_nil _⟩

/-- Parameters with their parenthesis are among the tokens given. -/
lemma parameterList_drawn {tokens : List Token} (given : ∀ t ∈ tokens, T t) :
    (parameterList eof tokens).result.Drawn T fun ps => ∀ t ∈ ps, T t := by
  rw [result_parameterList]
  split
  · exact (expect_drawn atEnd _ given).map fun _ _ => List.forall_mem_nil _
  · refine (parameters_drawn atEnd 0 tokens given).bind fun ps rest given drawn => ?_
    exact (expect_drawn atEnd _ given).map fun _ _ => drawn

/-- The name and the parameters of a function are among the tokens given. -/
lemma signature_drawn {tokens : List Token} (given : ∀ t ∈ tokens, T t) :
    (signature eof tokens).result.Drawn T fun signature =>
      T signature.1 ∧ ∀ t ∈ signature.2, T t := by
  rw [result_signature]
  refine (expect_drawn atEnd _ given).bind fun name rest given isName => ?_
  refine (expect_drawn atEnd _ given).bind fun _ rest given _ => ?_
  refine (parameterList_drawn atEnd given).bind fun ps rest given drawn => ?_
  exact (expect_drawn atEnd _ given).map fun _ _ => ⟨isName, drawn⟩

/-- The tokens of the initializer of a loop are among those given. -/
lemma initializer_drawn {tokens : List Token} (given : ∀ t ∈ tokens, T t) :
    (initializer eof tokens).result.Drawn T fun s? => ∀ t ∈ Stmt.tokensAll s?.toList, T t := by
  have single : ∀ {s : Stmt}, Stmts T s → ∀ t ∈ Stmt.tokensAll (some s).toList, T t := by
    intro s drawn
    simpa only [Option.toList_some, Stmt.tokensAll, List.append_nil] using drawn
  cases tokens with
  | nil =>
    rw [result_initializer_nil]
    exact (closed_drawn atEnd _ given).map fun e drawn => single drawn
  | cons token rest =>
    have behind := (List.forall_mem_cons.mp given).2
    rw [result_initializer_cons]
    split
    · exact ⟨List.forall_mem_nil _, behind, List.forall_mem_nil _⟩
    · split
      · exact (variableDeclaration_drawn atEnd behind).map fun s drawn => single drawn
      · exact (closed_drawn atEnd _ given).map fun e drawn => single drawn

/-- Certain tokens only stand in the clauses of a loop. -/
abbrev Clauses (T : Token → Prop) (clauses : ForClauses) : Prop :=
  (∀ t ∈ Stmt.tokensAll clauses.initializer.toList, T t) ∧
    (∀ t ∈ Expr.tokensAll clauses.condition.toList, T t) ∧
    ∀ t ∈ Expr.tokensAll clauses.increment.toList, T t

/-- The tokens of the parts of a loop are among those given. -/
lemma clauses_drawn {tokens : List Token} (given : ∀ t ∈ tokens, T t) :
    (clauses eof tokens).result.Drawn T (Clauses T) := by
  rw [result_clauses]
  refine (expect_drawn atEnd _ given).bind fun _ rest given _ => ?_
  refine (initializer_drawn atEnd given).bind fun initializer rest given first => ?_
  refine (optional_drawn atEnd _ given).bind fun condition rest given second => ?_
  exact (optional_drawn atEnd _ given).map fun increment third => ⟨first, second, third⟩

omit atEnd in
/-- A loop has the tokens of its clauses and of its body only. -/
lemma statement_drawn {clauses : ForClauses} {s : Stmt} (parts : Clauses T clauses)
    (body : Stmts T s) : Stmts T (clauses.statement s) := by
  have condition : Exprs T (clauses.condition.getD (.literal (.boolean true))) := by
    cases given : clauses.condition with
    | none => exact List.forall_mem_nil _
    | some e =>
      have second := parts.2.1
      rw [given] at second
      simpa only [Option.toList_some, Option.getD_some, Expr.tokensAll, List.append_nil] using second
  simp only [Stmts, ForClauses.statement, Stmt.tokens, Stmt.tokensAll_append, Stmt.tokensAll,
    List.append_nil, List.forall_mem_append]
  exact ⟨parts.1, condition, parts.2.2, body⟩

omit atEnd in
/-- Recovery skips tokens and makes none up. -/
lemma resume_drawn {tokens : List Token} (given : ∀ t ∈ tokens, T t) : ∀ t ∈ resume tokens, T t := by
  induction tokens with
  | nil => exact given
  | cons token rest ih =>
    have behind := (List.forall_mem_cons.mp given).2
    rw [resume]
    split
    · exact behind
    · exact ih behind

omit atEnd in
/-- What is left of a statement after recovery is about certain tokens if the statement is. -/
lemma recovered_drawn {p : Parsed Stmt} (h : p.Drawn T (Stmts T)) :
    (∀ t ∈ Stmt.tokensAll (recovered p).1.toList, T t) ∧ (∀ t ∈ (recovered p).2.1, T t) ∧
      ∀ e ∈ (recovered p).2.2, T e.token := by
  cases p with
  | done s rest errors =>
    refine ⟨?_, h.2⟩
    simpa only [recovered, Option.toList_some, Stmt.tokensAll, List.append_nil] using h.1
  | failed error rest errors =>
    refine ⟨List.forall_mem_nil _, resume_drawn h.2.1, ?_⟩
    exact List.forall_mem_append.mpr ⟨h.2.2, List.forall_mem_singleton.mpr h.1⟩

/-- The rules of statements make no tokens up. -/
lemma declaration_drawn :
    (∀ tokens, (∀ t ∈ tokens, T t) → (declaration eof tokens).result.Drawn T (Stmts T)) ∧
    (∀ tokens, (∀ t ∈ tokens, T t) → (function eof tokens).result.Drawn T (Stmts T)) ∧
    (∀ tokens, (∀ t ∈ tokens, T t) →
      (block eof tokens).result.Drawn T fun ss => ∀ t ∈ Stmt.tokensAll ss, T t) ∧
    (∀ tokens, (∀ t ∈ tokens, T t) → (statement eof tokens).result.Drawn T (Stmts T)) ∧
    (∀ condition tokens, Exprs T condition → (∀ t ∈ tokens, T t) →
      (branches eof condition tokens).result.Drawn T (Stmts T)) := by
  apply declaration.mutual_induct eof
  case case1 =>
    intro statement given
    rw [result_declaration_nil]
    exact statement given
  case case2 =>
    intro token rest isFun function given
    rw [result_declaration_cons, if_pos isFun]
    exact function (List.forall_mem_cons.mp given).2
  case case3 =>
    intro token rest notFun isVar given
    rw [result_declaration_cons, if_neg notFun, if_pos isVar]
    exact variableDeclaration_drawn atEnd (List.forall_mem_cons.mp given).2
  case case4 =>
    intro token rest notFun notVar statement given
    rw [result_declaration_cons, if_neg notFun, if_neg notVar]
    exact statement given
  case case5 =>
    intro tokens block given
    rw [result_function]
    refine Bounded.drawn_bind (signature_drawn atEnd given) ?_
    intro (name, parameters) rest shorter given head
    refine (block rest shorter given).map fun body inside => ?_
    simp only [Stmts, Stmt.tokens, List.forall_mem_cons, List.forall_mem_append]
    exact ⟨head.1, head.2, inside⟩
  case case6 =>
    intro given
    rw [result_block_nil]
    exact ⟨atEnd, given, List.forall_mem_nil _⟩
  case case7 =>
    intro token rest isBrace given
    rw [result_block_cons, if_pos isBrace]
    exact ⟨List.forall_mem_nil _, (List.forall_mem_cons.mp given).2, List.forall_mem_nil _⟩
  case case8 =>
    intro token rest notBrace statement? rest' errors shorter found declaration block given
    have kept := recovered_drawn (declaration given)
    rw [recovered_eq found] at kept
    rw [result_block_cons, if_neg notBrace, recovered_eq found]
    refine Parsed.Drawn.after ?_ kept.2.2
    refine (block kept.2.1).map fun body inside => ?_
    rw [Stmt.tokensAll_append]
    exact List.forall_mem_append.mpr ⟨kept.1, inside⟩
  case case9 =>
    intro given
    rw [result_statement_nil]
    exact (closed_drawn atEnd _ given).map fun e drawn => drawn
  case case10 =>
    intro token rest kind given
    rw [result_statement_cons, kind]
    exact (closed_drawn atEnd _ (List.forall_mem_cons.mp given).2).map fun e drawn => drawn
  case case11 =>
    intro token rest kind given
    have split := List.forall_mem_cons.mp given
    rw [result_statement_cons, kind]
    refine (optional_drawn atEnd _ split.2).map fun value drawn => ?_
    exact List.forall_mem_cons.mpr ⟨split.1, drawn⟩
  case case12 =>
    intro token rest kind block given
    rw [result_statement_cons, kind]
    exact (block (List.forall_mem_cons.mp given).2).map fun body inside => inside
  case case13 =>
    intro token rest kind branches given
    rw [result_statement_cons, kind]
    refine Bounded.drawn_bind (enclosed_drawn atEnd _ _ (List.forall_mem_cons.mp given).2) ?_
    exact fun condition rest shorter given drawn => branches condition rest shorter drawn given
  case case14 =>
    intro token rest kind statement given
    rw [result_statement_cons, kind]
    refine Bounded.drawn_bind (enclosed_drawn atEnd _ _ (List.forall_mem_cons.mp given).2) ?_
    intro condition rest shorter given drawn
    refine (statement rest shorter given).map fun body inside => ?_
    exact List.forall_mem_append.mpr ⟨drawn, inside⟩
  case case15 =>
    intro token rest kind statement given
    rw [result_statement_cons, kind]
    refine Bounded.drawn_bind (clauses_drawn atEnd (List.forall_mem_cons.mp given).2) ?_
    intro clauses rest shorter given parts
    exact (statement rest shorter given).map fun body inside => statement_drawn parts inside
  case case16 =>
    intro token rest _ _ _ _ _ _ given
    rw [result_statement_cons]
    split
    case h_7 => exact (closed_drawn atEnd _ given).map fun e drawn => drawn
    all_goals contradiction
  case case17 =>
    intro condition tokens statement others drawn given
    rw [result_branches]
    refine Bounded.drawn_bind (statement given) fun thenBranch rest shorter given first => ?_
    have alone : Stmts T (.ifThen condition thenBranch) :=
      List.forall_mem_append.mpr ⟨drawn, first⟩
    cases rest with
    | nil => exact ⟨alone, given, List.forall_mem_nil _⟩
    | cons token rest =>
      dsimp only
      split
      · have behind := (List.forall_mem_cons.mp given).2
        refine (others [] token rest shorter behind).map fun elseBranch second => ?_
        simp only [Stmts, Stmt.tokens, List.forall_mem_append]
        exact ⟨drawn, first, second⟩
      · exact ⟨alone, given, List.forall_mem_nil _⟩

/-- A program has tokens that were read only, and so have the objections to it. -/
lemma declarations_drawn (tokens : List Token) (given : ∀ t ∈ tokens, T t) :
    (∀ t ∈ Stmt.tokensAll (declarations eof tokens).1, T t) ∧
      ∀ e ∈ (declarations eof tokens).2, T e.token := by
  induction size : tokens.length using Nat.strongRecOn generalizing tokens with
  | ind n ih =>
    cases tokens with
    | nil =>
      rw [declarations_nil]
      exact ⟨List.forall_mem_nil _, List.forall_mem_nil _⟩
    | cons token rest =>
      have kept := recovered_drawn ((declaration_drawn atEnd).1 (token :: rest) given)
      rw [declarations_cons]
      generalize found : recover (Nat.succ_pos _) (declaration eof (token :: rest)) = left
      obtain ⟨statement?, rest', errors, shorter⟩ := left
      rw [recovered_eq found] at kept ⊢
      have later := ih rest'.length (size ▸ shorter) rest' kept.2.1 rfl
      dsimp only
      rw [Stmt.tokensAll_append]
      exact ⟨List.forall_mem_append.mpr ⟨kept.1, later.1⟩,
        List.forall_mem_append.mpr ⟨kept.2.2, later.2⟩⟩

end

end Parse

/-- The end mark of tokens among which there is one. -/
lemma Parse.endOf_mem {tokens : List Token} (ended : ∃ token ∈ tokens, token.kind = .eof) :
    endOf tokens ∈ tokens := by
  obtain ⟨token, mem, isEnd⟩ := ended
  have found : (tokens.find? (·.kind = .eof)).isSome := by
    rw [List.find?_isSome]
    exact ⟨token, mem, decide_eq_true isEnd⟩
  obtain ⟨mark, isMark⟩ := Option.isSome_iff_exists.mp found
  rw [endOf, isMark]
  exact List.mem_of_find?_eq_some isMark

/-- The parser takes the tokens of trees and of objections from the tokens that it is given, among
which there is an end mark. -/
lemma Program.parse_drawn {tokens : List Token} (ended : ∃ token ∈ tokens, token.kind = .eof) :
    (∀ t ∈ Stmt.tokensAll (Program.parse tokens).1, t ∈ tokens) ∧
      ∀ e ∈ (Program.parse tokens).2, e.token ∈ tokens := by
  have given : ∀ t ∈ Parse.beforeEnd tokens, t ∈ tokens :=
    fun t mem => (List.takeWhile_sublist _).mem mem
  have drawn := Parse.declarations_drawn (Parse.endOf_mem ended) (Parse.beforeEnd tokens) given
  refine ⟨fun t mem => drawn.1 t ?_, drawn.2⟩
  exact (Stmt.mem_tokensAll_desugarAll t _).mp mem

end Lox
