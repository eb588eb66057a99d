import Lox.Proofs.Grammar.Parts

/-!
# Statements of the grammar

The parser of programs derives what the grammar derives, with the same trees, where `for` loops are
statements of their own. An `else` goes to the statement that is just being read if that one can take
it, so what the parser reads as a statement is pending only where no `else` follows.
-/

namespace Lox

open Parse

namespace Grammar

/-- The kinds of tokens that begin statements. -/
def statementKinds : List Kind :=
  operandKinds ++ [.kwPrint, .kwReturn, .leftBrace, .kwIf, .kwWhile, .kwFor]

/-- The kinds of tokens that begin declarations. -/
def declarationKinds : List Kind :=
  statementKinds ++ [.kwVar, .kwFun]

/-- No `else` stands in front of the tokens. -/
def NoElse : List Token → Prop
  | [] => True
  | token :: _ => token.kind ≠ .kwElse

section

variable {forLoop : ForClauses → Stmt → Stmt} {ending : Ending} {ts : List Token} {s : Stmt}

/-- A statement begins with a token of a kind that begins statements. -/
lemma Statement.first_mem (h : Statement forLoop ending ts s) :
    ∃ token us, ts = token :: us ∧ token.kind ∈ statementKinds := by
  cases h with
  | expression e _ =>
    obtain ⟨token, us, rfl, mem⟩ := e.first_mem
    exact ⟨token, _, rfl, List.mem_append_left _ mem⟩
  | print kind _ _ | ret kind _ _ | block kind _ | ifThen kind _ _ | ifElse kind _ _ _ _
  | whileLoop kind _ _ | forLoop kind _ _ => exact ⟨_, _, rfl, by rw [kind]; decide⟩

/-- A declaration begins with a token of a kind that begins declarations. -/
lemma Declaration.first_mem (h : Declaration forLoop ts s) :
    ∃ token us, ts = token :: us ∧ token.kind ∈ declarationKinds := by
  cases h with
  | var kind _ | function kind _ _ _ _ _ _ => exact ⟨_, _, rfl, by rw [kind]; decide⟩
  | statement inner =>
    obtain ⟨token, us, rfl, mem⟩ := inner.first_mem
    exact ⟨token, us, rfl, List.mem_append_left _ mem⟩

/-- A declaration begins with no `else`. -/
lemma Declaration.noElse (h : Declaration forLoop ts s) (rest : List Token) :
    NoElse (ts ++ rest) := by
  obtain ⟨token, us, rfl, mem⟩ := h.first_mem
  exact ne_of_mem mem (by decide)

/-- A block goes on with no `else`. -/
lemma Block.noElse {ss : List Stmt} (h : Block forLoop ts ss) (rest : List Token) :
    NoElse (ts ++ rest) := by
  cases h with
  | nil kind =>
    change _ ≠ _
    rw [kind]
    decide
  | cons first others =>
    rw [List.append_assoc]
    exact first.noElse _

/-- A program begins with no `else`. -/
lemma Declarations.noElse {program : Program} (h : Declarations forLoop ts program) : NoElse ts := by
  cases h with
  | nil => trivial
  | cons first others => exact first.noElse _

end

section

variable (eof : Token)

/-- The parser reads the tokens as a statement, unless an `else` follows that belongs to it. -/
def ReadsStatement (ending : Ending) (ts : List Token) (s : Stmt) : Prop :=
  ∀ rest, (ending = .pending → NoElse rest) → (statement eof (ts ++ rest)).result = .done s rest []

/-- The parser reads the tokens as a declaration. -/
def ReadsDeclaration (ts : List Token) (s : Stmt) : Prop :=
  ∀ rest, NoElse rest → (declaration eof (ts ++ rest)).result = .done s rest []

/-- The parser reads the tokens as declarations up to a closing brace. -/
def ReadsBlock (ts : List Token) (ss : List Stmt) : Prop :=
  ∀ rest, (block eof (ts ++ rest)).result = .done ss rest []

end

section

variable {eof : Token} {ending : Ending} {ts us vs : List Token} {s t : Stmt} {e : Expr}

/-- Statements that begin with an operand are expression statements. -/
lemma result_statement_operand {token : Token} (rest : List Token)
    (mem : token.kind ∈ operandKinds) :
    (statement eof (token :: rest)).result =
      (closed eof .expressionEnd (token :: rest)).result.map .expression := by
  rw [result_statement_cons]
  split
  case h_7 => rfl
  all_goals
    rename_i kind
    rw [kind] at mem
    exact absurd mem (by decide)

namespace ReadsStatement

/-- An expression and a semicolon are read as a statement. -/
lemma expression {stop : Token} (derived : Expression .assignment ts e)
    (closing : stop.kind = .semicolon) :
    ReadsStatement eof .closed (ts ++ [stop]) (.expression e) := by
  intro rest _
  have read : (closed eof .expressionEnd (ts ++ stop :: rest)).result = .done e rest [] :=
    (closed_iff rfl).mpr ⟨ts, stop, rfl, derived, closing⟩
  obtain ⟨token, us, rfl, mem⟩ := derived.first_mem
  rw [List.append_assoc, List.singleton_append, List.cons_append, result_statement_operand _ mem,
    ← List.cons_append, read, Parsed.map_done]

/-- A `print` statement is read with its expression. -/
lemma print {keyword stop : Token} (kind : keyword.kind = .kwPrint)
    (derived : Expression .assignment ts e) (closing : stop.kind = .semicolon) :
    ReadsStatement eof .closed (keyword :: (ts ++ [stop])) (.print e) := by
  intro rest _
  have read : (closed eof .printEnd (ts ++ stop :: rest)).result = .done e rest [] :=
    (closed_iff rfl).mpr ⟨ts, stop, rfl, derived, closing⟩
  rw [List.cons_append, List.append_assoc, List.singleton_append, result_statement_cons, kind]
  dsimp only
  rw [read, Parsed.map_done]

/-- A `return` statement is read with its value, if there is one. -/
lemma ret {keyword stop : Token} {value : Option Expr} (kind : keyword.kind = .kwReturn)
    (derived : Optional ts value) (closing : stop.kind = .semicolon) :
    ReadsStatement eof .closed (keyword :: (ts ++ [stop])) (.ret keyword value) := by
  intro rest _
  have read : (optional eof .returnEnd (ts ++ stop :: rest)).result = .done value rest [] :=
    (optional_iff rfl (by decide)).mpr ⟨ts, stop, rfl, derived, closing⟩
  rw [List.cons_append, List.append_assoc, List.singleton_append, result_statement_cons, kind]
  dsimp only
  rw [read, Parsed.map_done]

/-- A block is read if its declarations are. -/
lemma block {start : Token} {ss : List Stmt} (kind : start.kind = .leftBrace)
    (body : ReadsBlock eof ts ss) : ReadsStatement eof .closed (start :: ts) (.block ss) := by
  intro rest _
  rw [List.cons_append, result_statement_cons, kind]
  dsimp only
  rw [body rest, Parsed.map_done]

/-- An `if` without an `else` is read if no `else` follows. -/
lemma ifThen {keyword : Token} (kind : keyword.kind = .kwIf) (condition : Condition ts e)
    (branch : ReadsStatement eof ending us s) :
    ReadsStatement eof .pending (keyword :: (ts ++ us)) (.ifThen e s) := by
  intro rest noElse
  have read : (enclosed eof .ifStart .ifEnd (ts ++ (us ++ rest))).result = .done e (us ++ rest) [] :=
    (enclosed_iff rfl rfl).mpr ⟨ts, rfl, condition⟩
  rw [List.cons_append, List.append_assoc, result_statement_cons, kind]
  dsimp only
  rw [read, Parsed.bind_done, result_branches, branch rest fun _ => noElse rfl, Parsed.bind_done]
  -- No `else` follows, so that the branches end here.
  cases rest with
  | nil => rfl
  | cons token others =>
    dsimp only
    rw [if_neg (noElse rfl)]

/-- An `if` is read with its `else` if the first branch cannot take it. -/
lemma ifElse {keyword other : Token} (kind : keyword.kind = .kwIf) (condition : Condition ts e)
    (thenBranch : ReadsStatement eof .closed us s) (isElse : other.kind = .kwElse)
    (elseBranch : ReadsStatement eof ending vs t) :
    ReadsStatement eof ending (keyword :: (ts ++ (us ++ other :: vs))) (.ifElse e s t) := by
  intro rest noElse
  have read : (enclosed eof .ifStart .ifEnd (ts ++ (us ++ other :: (vs ++ rest)))).result =
      .done e (us ++ other :: (vs ++ rest)) [] :=
    (enclosed_iff rfl rfl).mpr ⟨ts, rfl, condition⟩
  rw [List.cons_append, List.append_assoc, List.append_assoc, List.cons_append,
    result_statement_cons, kind]
  dsimp only
  -- A closed first branch takes no `else`, so the one that follows is left for this `if`.
  rw [read, Parsed.bind_done, result_branches, thenBranch _ nofun, Parsed.bind_done]
  dsimp only
  rw [if_pos isElse, elseBranch rest noElse, Parsed.map_done]

/-- A `while` loop is read with its body, and ends as that does. -/
lemma whileLoop {keyword : Token} (kind : keyword.kind = .kwWhile) (condition : Condition ts e)
    (body : ReadsStatement eof ending us s) :
    ReadsStatement eof ending (keyword :: (ts ++ us)) (.loop e none s) := by
  intro rest noElse
  have read : (enclosed eof .whileStart .whileEnd (ts ++ (us ++ rest))).result =
      .done e (us ++ rest) [] :=
    (enclosed_iff rfl rfl).mpr ⟨ts, rfl, condition⟩
  rw [List.cons_append, List.append_assoc, result_statement_cons, kind]
  dsimp only
  rw [read, Parsed.bind_done, body rest noElse, Parsed.map_done]

/-- A `for` loop is read with its parts and its body, and ends as that does. -/
lemma forLoop {keyword : Token} {parts : ForClauses} (kind : keyword.kind = .kwFor)
    (derived : Clauses ts parts) (body : ReadsStatement eof ending us s) :
    ReadsStatement eof ending (keyword :: (ts ++ us)) (parts.statement s) := by
  intro rest noElse
  have read : (clauses eof (ts ++ (us ++ rest))).result = .done parts (us ++ rest) [] :=
    clauses_iff.mpr ⟨ts, rfl, derived⟩
  rw [List.cons_append, List.append_assoc, result_statement_cons, kind]
  dsimp only
  rw [read, Parsed.bind_done, body rest noElse, Parsed.map_done]

end ReadsStatement

namespace ReadsDeclaration

/-- The declaration of a variable is read behind its keyword. -/
lemma var {keyword : Token} (kind : keyword.kind = .kwVar) (derived : Variable ts s) :
    ReadsDeclaration eof (keyword :: ts) s := by
  intro rest _
  have notFun : keyword.kind ≠ .kwFun := by rw [kind]; decide
  rw [List.cons_append, result_declaration_cons, if_neg notFun, if_pos kind]
  exact variableDeclaration_iff.mpr ⟨ts, rfl, derived⟩

/-- The declaration of a function is read with its parameters and its body. -/
lemma function {keyword name start stop brace : Token} {names : List Token} {ss : List Stmt}
    (kind : keyword.kind = .kwFun) (isName : name.kind = .identifier)
    (opening : start.kind = .leftParen) (parameters : Parameters ts names)
    (closing : stop.kind = .rightParen) (isBrace : brace.kind = .leftBrace)
    (body : ReadsBlock eof us ss) :
    ReadsDeclaration eof (keyword :: name :: start :: (ts ++ stop :: brace :: us))
      (.function name names ss) := by
  intro rest _
  have read : (signature eof (name :: start :: (ts ++ stop :: brace :: (us ++ rest)))).result =
      .done (name, names) (us ++ rest) [] :=
    signature_iff.mpr ⟨start, ts, stop, brace, rfl, isName, opening, parameters, closing, isBrace⟩
  have flat : keyword :: name :: start :: (ts ++ stop :: brace :: us) ++ rest =
      keyword :: name :: start :: (ts ++ stop :: brace :: (us ++ rest)) := by
    simp only [List.cons_append, List.append_assoc]
  rw [flat, result_declaration_cons, if_pos kind, result_function, read, Parsed.bind_done]
  dsimp only
  rw [body rest, Parsed.map_done]

/-- A statement is read as a declaration. -/
lemma statement (first : ∃ token us, ts = token :: us ∧ token.kind ∈ statementKinds)
    (h : ReadsStatement eof ending ts s) : ReadsDeclaration eof ts s := by
  intro rest noElse
  obtain ⟨token, us, rfl, mem⟩ := first
  rw [List.cons_append, result_declaration_cons, if_neg (ne_of_mem mem (by decide)),
    if_neg (ne_of_mem mem (by decide)), ← List.cons_append]
  exact h rest fun _ => noElse

end ReadsDeclaration

namespace ReadsBlock

/-- A closing brace is read as the end of a block. -/
lemma nil {stop : Token} (kind : stop.kind = .rightBrace) : ReadsBlock eof [stop] [] := by
  intro rest
  rw [List.singleton_append, result_block_cons, if_pos kind]

/-- A declaration and those behind it are read one by one. -/
lemma cons {ss : List Stmt} (first : ∃ token us, ts = token :: us ∧ token.kind ∈ declarationKinds)
    (noElse : ∀ rest, NoElse (us ++ rest)) (h : ReadsDeclaration eof ts s)
    (others : ReadsBlock eof us ss) : ReadsBlock eof (ts ++ us) (s :: ss) := by
  intro rest
  have read := h (us ++ rest) (noElse rest)
  -- A declaration begins with no brace, so the block goes on.
  obtain ⟨token, ts, rfl, mem⟩ := first
  rw [List.cons_append] at read
  rw [List.append_assoc, List.cons_append, result_block_cons, if_neg (ne_of_mem mem (by decide)),
    read]
  dsimp only [recovered]
  rw [others rest, Parsed.map_done]
  rfl

end ReadsBlock

end

mutual

/-- The parser reads what the grammar derives as a statement. -/
lemma Statement.complete (eof : Token) {ending : Ending} {ts : List Token} {s : Stmt}
    (h : Statement ForClauses.statement ending ts s) : ReadsStatement eof ending ts s :=
  match h with
  | .expression e stop => .expression e stop
  | .print keyword e stop => .print keyword e stop
  | .ret keyword value stop => .ret keyword value stop
  | .block start body => .block start (body.complete eof)
  | .ifThen keyword condition branch => .ifThen keyword condition (branch.complete eof)
  | .ifElse keyword condition thenBranch other elseBranch =>
    .ifElse keyword condition (thenBranch.complete eof) other (elseBranch.complete eof)
  | .whileLoop keyword condition body => .whileLoop keyword condition (body.complete eof)
  | .forLoop keyword clauses body => .forLoop keyword clauses (body.complete eof)

/-- The parser reads the declarations of the grammar. -/
lemma Declaration.complete (eof : Token) {ts : List Token} {s : Stmt}
    (h : Declaration ForClauses.statement ts s) : ReadsDeclaration eof ts s :=
  match h with
  | .var keyword rest => .var keyword rest
  | .function keyword name start parameters stop brace body =>
    .function keyword name start parameters stop brace (body.complete eof)
  | .statement inner => .statement inner.first_mem (inner.complete eof)

/-- The parser reads the blocks of the grammar. -/
lemma Block.complete (eof : Token) {ts : List Token} {ss : List Stmt}
    (h : Block ForClauses.statement ts ss) : ReadsBlock eof ts ss :=
  match h with
  | .nil stop => .nil stop
  | .cons first others =>
    .cons first.first_mem others.noElse (first.complete eof) (others.complete eof)

end

/-- The parser reads what the grammar derives as a program. -/
lemma Declarations.complete (eof : Token) {ts : List Token} {program : Program}
    (h : Declarations ForClauses.statement ts program) :
    declarations eof ts = (program, []) := by
  induction h with
  | nil => exact declarations_nil eof
  | @cons ts us s program first others ih =>
    have read := first.complete eof us others.noElse
    obtain ⟨token, ts, rfl, _⟩ := first.first_mem
    rw [List.cons_append] at read
    rw [List.cons_append, declarations_cons, read]
    dsimp only [recovered]
    rw [ih]
    rfl

section

variable (eof : Token)

/-- What is read as a statement without errors is derived, and no `else` that it could take
follows. -/
def StatementSound (tokens : List Token) : Prop :=
  ∀ s rest, (statement eof tokens).result = .done s rest [] →
    ∃ ending ts, tokens = ts ++ rest ∧ Statement ForClauses.statement ending ts s ∧
      (ending = .pending → NoElse rest)

/-- What is read behind the condition of an `if` without errors is derived. -/
def BranchesSound (condition : Expr) (tokens : List Token) : Prop :=
  ∀ s rest, (branches eof condition tokens).result = .done s rest [] →
    ∀ keyword cs, keyword.kind = .kwIf → Condition cs condition →
    ∃ ending ts, tokens = ts ++ rest ∧
      Statement ForClauses.statement ending (keyword :: (cs ++ ts)) s ∧
      (ending = .pending → NoElse rest)

/-- What is read as a block without errors is derived. -/
def BlockSound (tokens : List Token) : Prop :=
  ∀ ss rest, (block eof tokens).result = .done ss rest [] →
    ∃ ts, tokens = ts ++ rest ∧ Block ForClauses.statement ts ss

/-- What is read as a declaration without errors is derived. -/
def DeclarationSound (tokens : List Token) : Prop :=
  ∀ s rest, (declaration eof tokens).result = .done s rest [] →
    ∃ ts, tokens = ts ++ rest ∧ Declaration ForClauses.statement ts s

/-- What is read behind the keyword of a function without errors is derived. -/
def FunctionSound (tokens : List Token) : Prop :=
  ∀ s rest, (function eof tokens).result = .done s rest [] → ∀ keyword, keyword.kind = .kwFun →
    ∃ ts, tokens = ts ++ rest ∧ Declaration ForClauses.statement (keyword :: ts) s

end

section

variable {eof token : Token} {condition : Expr} {tokens rest : List Token}

/-- Nothing is recovered from without errors. -/
lemma recovered_eq_done {p : Parsed Stmt} {statement? : Option Stmt}
    (h : recovered p = (statement?, rest, [])) :
    ∃ s, statement? = some s ∧ p = .done s rest [] := by
  cases p with
  | done s rest errors =>
    cases h
    exact ⟨s, rfl, rfl⟩
  | failed error rest errors =>
    rw [recovered, Prod.mk.injEq, Prod.mk.injEq] at h
    exact (List.append_ne_nil_of_right_ne_nil errors (List.cons_ne_nil error []) h.2.2).elim

/-- A declaration that is read as a statement is derived if the statement is. -/
lemma DeclarationSound.of_statement (inner : StatementSound eof tokens)
    (same : (declaration eof tokens).result = (statement eof tokens).result) :
    DeclarationSound eof tokens := by
  intro s rest done
  rw [same] at done
  obtain ⟨ending, ts, eq, derived, _⟩ := inner s rest done
  exact ⟨ts, eq, .statement derived⟩

/-- A function is derived if its body is. -/
lemma FunctionSound.of_block
    (body : ∀ rest, rest.length < tokens.length → BlockSound eof rest) :
    FunctionSound eof tokens := by
  intro s rest done keyword kind
  rw [result_function] at done
  obtain ⟨⟨name, names⟩, middle, read, behind⟩ := Parsed.bind_eq_done.mp done
  obtain ⟨ss, read', rfl⟩ := Parsed.map_eq_done.mp behind
  have shorter := (signature eof tokens).within
  rw [read] at shorter
  obtain ⟨start, ts, stop, brace, rfl, isName, opening, parameters, closing, isBrace⟩ :=
    signature_iff.mp read
  obtain ⟨us, rfl, derived⟩ := body middle shorter ss rest read'
  refine ⟨name :: start :: (ts ++ stop :: brace :: us), ?_, ?_⟩
  · simp only [List.cons_append, List.append_assoc]
  · exact .function kind isName opening parameters closing isBrace derived

/-- A block is derived if its first declaration is and those behind it are. -/
lemma BlockSound.of_declaration {statement? : Option Stmt} {rest' : List Token}
    {errors : List SyntaxError} (notBrace : token.kind ≠ .rightBrace)
    (found : recovered (declaration eof (token :: rest)).result = (statement?, rest', errors))
    (first : DeclarationSound eof (token :: rest)) (others : BlockSound eof rest') :
    BlockSound eof (token :: rest) := by
  intro ss rest'' done
  rw [result_block_cons, if_neg notBrace, found] at done
  obtain ⟨rfl, clean⟩ := Parsed.after_eq_done.mp done
  obtain ⟨us, read, rfl⟩ := Parsed.map_eq_done.mp clean
  obtain ⟨s, rfl, read'⟩ := recovered_eq_done found
  obtain ⟨ts, eq, derived⟩ := first s rest' read'
  obtain ⟨vs, rfl, derived'⟩ := others us rest'' read
  refine ⟨ts ++ vs, ?_, .cons derived derived'⟩
  rw [eq, List.append_assoc]

/-- An `if` with one branch or two. -/
lemma BranchesSound.of_statement (first : StatementSound eof tokens)
    (second : ∀ (token : Token) (rest : List Token), (token :: rest).length < tokens.length →
      StatementSound eof rest) :
    BranchesSound eof condition tokens := by
  intro s rest done keyword cs kind derivedCondition
  rw [result_branches] at done
  obtain ⟨t, middle, read, behind⟩ := Parsed.bind_eq_done.mp done
  have shorter := (statement eof tokens).within
  rw [read] at shorter
  obtain ⟨ending, ts, rfl, derived, noElse⟩ := first t middle read
  cases middle with
  | nil =>
    cases behind
    exact ⟨.pending, ts, rfl, .ifThen kind derivedCondition derived, fun _ => trivial⟩
  | cons other others =>
    dsimp only at behind
    split at behind
    · rename_i isElse
      obtain ⟨u, read', rfl⟩ := Parsed.map_eq_done.mp behind
      obtain ⟨ending', us, rfl, derived', noElse'⟩ := second other others shorter u rest read'
      -- A pending branch would have taken the `else` itself.
      have closed : ending = .closed := by
        cases ending with
        | closed => rfl
        | pending => exact (noElse rfl isElse).elim
      subst closed
      refine ⟨ending', ts ++ other :: us, ?_, ?_, noElse'⟩
      · rw [List.append_assoc, List.cons_append]
      · exact .ifElse kind derivedCondition derived isElse derived'
    · rename_i notElse
      cases behind
      exact ⟨.pending, ts, rfl, .ifThen kind derivedCondition derived, fun _ => notElse⟩

end

/-- What the parser of statements reads without errors is derived by the grammar. -/
lemma statements_sound (eof : Token) :
    (∀ tokens, DeclarationSound eof tokens) ∧ (∀ tokens, FunctionSound eof tokens) ∧
    (∀ tokens, BlockSound eof tokens) ∧ (∀ tokens, StatementSound eof tokens) ∧
    (∀ condition tokens, BranchesSound eof condition tokens) := by
  have expression : ∀ {tokens s rest},
      (closed eof .expressionEnd tokens).result.map .expression = .done s rest [] →
      ∃ ending ts, tokens = ts ++ rest ∧ Statement ForClauses.statement ending ts s ∧
        (ending = .pending → NoElse rest) := by
    intro tokens s rest done
    obtain ⟨e, read, rfl⟩ := Parsed.map_eq_done.mp done
    obtain ⟨ts, stop, rfl, derived, closing⟩ := (closed_iff rfl).mp read
    refine ⟨.closed, ts ++ [stop], ?_, .expression derived closing, nofun⟩
    rw [List.append_assoc, List.singleton_append]
  -- One case per equation of the rules, in the order of the statement, branches last.
  apply declaration.mutual_induct eof
  case case1 =>
    intro statement
    exact .of_statement statement (result_declaration_nil eof)
  case case2 =>
    intro token rest isFun function s rest' done
    rw [result_declaration_cons, if_pos isFun] at done
    obtain ⟨ts, rfl, derived⟩ := function s rest' done token isFun
    exact ⟨token :: ts, rfl, derived⟩
  case case3 =>
    intro token rest notFun isVar s rest' done
    rw [result_declaration_cons, if_neg notFun, if_pos isVar] at done
    obtain ⟨ts, rfl, derived⟩ := variableDeclaration_iff.mp done
    exact ⟨token :: ts, rfl, .var isVar derived⟩
  case case4 =>
    intro token rest notFun notVar statement
    refine .of_statement statement ?_
    rw [result_declaration_cons, if_neg notFun, if_neg notVar]
  case case5 =>
    intro tokens block
    exact .of_block block
  case case6 =>
    intro ss rest done
    rw [result_block_nil] at done
    exact nomatch done
  case case7 =>
    intro token rest isBrace ss rest' done
    rw [result_block_cons, if_pos isBrace] at done
    cases done
    exact ⟨[token], rfl, .nil isBrace⟩
  case case8 =>
    intro token rest notBrace statement? rest' errors shorter found declaration block
    exact .of_declaration notBrace (recovered_eq found) declaration block
  case case9 =>
    intro s rest done
    rw [result_statement_nil] at done
    exact expression done
  case case10 =>
    intro token rest kind s rest' done
    rw [result_statement_cons, kind] at done
    obtain ⟨e, read, rfl⟩ := Parsed.map_eq_done.mp done
    obtain ⟨ts, stop, rfl, derived, closing⟩ := (closed_iff rfl).mp read
    refine ⟨.closed, token :: (ts ++ [stop]), ?_, .print kind derived closing, nofun⟩
    rw [List.cons_append, List.append_assoc, List.singleton_append]
  case case11 =>
    intro token rest kind s rest' done
    rw [result_statement_cons, kind] at done
    obtain ⟨value, read, rfl⟩ := Parsed.map_eq_done.mp done
    obtain ⟨ts, stop, rfl, derived, closing⟩ := (optional_iff rfl (by decide)).mp read
    refine ⟨.closed, token :: (ts ++ [stop]), ?_, .ret kind derived closing, nofun⟩
    rw [List.cons_append, List.append_assoc, List.singleton_append]
  case case12 =>
    intro token rest kind block s rest' done
    rw [result_statement_cons, kind] at done
    obtain ⟨ss, read, rfl⟩ := Parsed.map_eq_done.mp done
    obtain ⟨ts, rfl, derived⟩ := block ss rest' read
    exact ⟨.closed, token :: ts, rfl, .block kind derived, nofun⟩
  case case13 =>
    intro token rest kind branches s rest' done
    rw [result_statement_cons, kind] at done
    obtain ⟨condition, middle, read, behind⟩ := Parsed.bind_eq_done.mp done
    have shorter := (enclosed eof .ifStart .ifEnd rest).within
    rw [read] at shorter
    obtain ⟨cs, rfl, derivedCondition⟩ := (enclosed_iff rfl rfl).mp read
    obtain ⟨ending, ts, rfl, derived, noElse⟩ :=
      branches condition middle shorter s rest' behind token cs kind derivedCondition
    refine ⟨ending, token :: (cs ++ ts), ?_, derived, noElse⟩
    rw [List.cons_append, List.append_assoc]
  case case14 =>
    intro token rest kind statement s rest' done
    rw [result_statement_cons, kind] at done
    obtain ⟨condition, middle, read, behind⟩ := Parsed.bind_eq_done.mp done
    obtain ⟨body, read', rfl⟩ := Parsed.map_eq_done.mp behind
    have shorter := (enclosed eof .whileStart .whileEnd rest).within
    rw [read] at shorter
    obtain ⟨cs, rfl, derivedCondition⟩ := (enclosed_iff rfl rfl).mp read
    obtain ⟨ending, ts, rfl, derived, noElse⟩ := statement middle shorter body rest' read'
    refine ⟨ending, token :: (cs ++ ts), ?_, .whileLoop kind derivedCondition derived, noElse⟩
    rw [List.cons_append, List.append_assoc]
  case case15 =>
    intro token rest kind statement s rest' done
    rw [result_statement_cons, kind] at done
    obtain ⟨parts, middle, read, behind⟩ := Parsed.bind_eq_done.mp done
    obtain ⟨body, read', rfl⟩ := Parsed.map_eq_done.mp behind
    have shorter := (clauses eof rest).within
    rw [read] at shorter
    obtain ⟨cs, rfl, derivedClauses⟩ := clauses_iff.mp read
    obtain ⟨ending, ts, rfl, derived, noElse⟩ := statement middle shorter body rest' read'
    refine ⟨ending, token :: (cs ++ ts), ?_, .forLoop kind derivedClauses derived, noElse⟩
    rw [List.cons_append, List.append_assoc]
  case case16 =>
    intro token rest _ _ _ _ _ _ s rest' done
    rw [result_statement_cons] at done
    split at done
    case h_7 => exact expression done
    all_goals contradiction
  case case17 =>
    intro condition tokens first second
    exact .of_statement first fun token rest shorter => second [] token rest shorter

/-- What the parser reads as a program without errors is derived by the grammar. -/
lemma Declarations.sound (eof : Token) {tokens : List Token} {program : Program}
    (read : declarations eof tokens = (program, [])) :
    Declarations ForClauses.statement tokens program := by
  induction size : tokens.length using Nat.strongRecOn generalizing tokens program with
  | ind n ih =>
    cases tokens with
    | nil =>
      rw [declarations_nil] at read
      cases read
      exact .nil
    | cons token rest =>
      -- Recovery could skip tokens, so the induction is on the length and not on the list.
      have shorter := (recover (Nat.succ_pos _) (declaration eof (token :: rest))).shorter
      generalize left : recover (Nat.succ_pos _) (declaration eof (token :: rest)) = kept at shorter
      obtain ⟨statement?, rest', errors, within⟩ := kept
      have found := recovered_eq left
      rw [declarations_cons, found] at read
      obtain ⟨rfl, noErrors⟩ := Prod.mk.inj read
      obtain ⟨rfl, clean⟩ := List.append_eq_nil_iff.mp noErrors
      obtain ⟨s, rfl, read'⟩ := recovered_eq_done found
      obtain ⟨ts, eq, derived⟩ := (statements_sound eof).1 (token :: rest) s rest' read'
      have others : declarations eof rest' = ((declarations eof rest').1, []) :=
        Prod.ext rfl clean
      rw [eq]
      exact .cons derived (ih rest'.length (size ▸ within) others rfl)

/-- The parser reads a list of tokens without errors exactly if the grammar derives it, with the same
program. -/
theorem declarations_iff (eof : Token) {tokens : List Token} {program : Program} :
    declarations eof tokens = (program, []) ↔
      Declarations ForClauses.statement tokens program :=
  ⟨Declarations.sound eof, Declarations.complete eof⟩

end Grammar

end Lox
