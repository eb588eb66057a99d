import Lox.Proofs.Syntax.Origin

/-!
# Progress of the parser

The rules of the parser read a list of tokens from its front, and every error that they report is
paid for by a token that they have read. A rule that fails may still owe its error: if it has left a
token, recovery skips that one, and if it has left none, a token that it has read has paid for no
other error. So every declaration takes the parser forward, also if it fails, and there are no more
errors than tokens.
-/

namespace Lox

namespace Parsed

variable {α β : Type} {tokens tokens' : List Token} {n m k : Nat}

/-- The tokens left are the last of those given, and together with the errors they are fewer than a
bound; of a rule that failed, the bound covers the error with which it failed. -/
def Frugal (tokens : List Token) (n : Nat) : Parsed α → Prop
  | done _ rest errors => rest <:+ tokens ∧ errors.length + rest.length < n
  | failed _ rest errors => rest <:+ tokens ∧ errors.length + max rest.length 1 ≤ n

/-- A frugal rule is so over more tokens and below a larger bound. -/
lemma Frugal.widen {p : Parsed α} (h : p.Frugal tokens n) (part : tokens <:+ tokens')
    (le : n ≤ m) : p.Frugal tokens' m := by
  cases p with
  | done value rest errors => exact ⟨h.1.trans part, Nat.lt_of_lt_of_le h.2 le⟩
  | failed error rest errors => exact ⟨h.1.trans part, Nat.le_trans h.2 le⟩

/-- Earlier errors count as well. -/
lemma Frugal.after {p : Parsed α} (h : p.Frugal tokens n) (earlier : List SyntaxError) :
    (p.after earlier).Frugal tokens (earlier.length + n) := by
  cases p with
  | done value rest errors =>
    refine ⟨h.1, ?_⟩
    rw [List.length_append, Nat.add_assoc]
    exact Nat.add_lt_add_left h.2 _
  | failed error rest errors =>
    refine ⟨h.1, ?_⟩
    rw [List.length_append, Nat.add_assoc]
    exact Nat.add_le_add_left h.2 _

/-- A rule that is done has a token to spare, which pays for what goes on behind it; what that one
overdraws, both do. -/
lemma Frugal.bind_add {p : Parsed α} {next : α → List Token → Parsed β} (k : Nat)
    (h : p.Frugal tokens n)
    (behind : ∀ value rest, (next value rest).Frugal rest (rest.length + 1 + k)) :
    (p.bind next).Frugal tokens (n + k) := by
  cases p with
  | done value rest errors =>
    have bound := h.2
    exact ((behind value rest).after errors).widen h.1 (by omega)
  | failed error rest errors => exact ⟨h.1, Nat.le_add_right_of_le h.2⟩

/-- A frugal rule may be followed by one that is frugal with what is left. -/
lemma Frugal.bind {p : Parsed α} {next : α → List Token → Parsed β} (h : p.Frugal tokens n)
    (behind : ∀ value rest, (next value rest).Frugal rest (rest.length + 1)) :
    (p.bind next).Frugal tokens n :=
  h.bind_add 0 behind

/-- To be done without errors is frugal. -/
lemma Frugal.done (value : α) (rest : List Token) :
    (done value rest []).Frugal rest (rest.length + 1) := by
  refine ⟨List.suffix_refl rest, ?_⟩
  rw [List.length_nil, Nat.zero_add]
  exact Nat.lt_succ_self _

/-- To fail at once is frugal. -/
lemma Frugal.failed (error : SyntaxError) (rest : List Token) :
    (failed error rest [] : Parsed α).Frugal rest (max rest.length 1) := by
  refine ⟨List.suffix_refl rest, Nat.le_of_eq ?_⟩
  rw [List.length_nil, Nat.zero_add]

/-- A frugal rule is so whatever is made of its value. -/
lemma Frugal.map {p : Parsed α} (h : p.Frugal tokens n) (f : α → β) : (p.map f).Frugal tokens n :=
  h.bind fun value rest => .done (f value) rest

/-- A rule that owes nothing is frugal behind any other one. -/
lemma Frugal.loose {p : Parsed α} (h : p.Frugal tokens (max tokens.length 1)) :
    p.Frugal tokens (tokens.length + 1) :=
  h.widen (List.suffix_refl tokens) (by omega)

/-- A token in front pays for a rule behind it. -/
lemma Frugal.behind {p : Parsed α} {rest : List Token} (token : Token)
    (h : p.Frugal rest (rest.length + 1)) :
    p.Frugal (token :: rest) (max (token :: rest).length 1) :=
  h.widen (List.suffix_cons token rest) (Nat.le_max_left _ _)

end Parsed

/-- The tokens left by a rule that is done are within its bound. -/
lemma Bounded.frugal_bind {α β : Type} {n k : Nat} {tokens : List Token} {p : Bounded α n}
    {next : α → List Token → Parsed β} (h : p.result.Frugal tokens k)
    (behind : ∀ value rest, rest.length < n → (next value rest).Frugal rest (rest.length + 1)) :
    (p.result.bind next).Frugal tokens k := by
  obtain ⟨result, within⟩ := p
  cases result with
  | done value rest errors =>
    have bound := h.2
    exact ((behind value rest within).after errors).widen h.1 (by omega)
  | failed error rest errors => exact h

namespace Parse

variable (eof : Token)

/-- A rule that owes nothing for the tokens it is given. -/
abbrev Pays {α : Type} (tokens : List Token) (p : Parsed α) : Prop :=
  p.Frugal tokens (max tokens.length 1)

/-- An expected token pays for its error. -/
lemma expect_frugal (place : Expectation) (tokens : List Token) :
    Pays tokens (expect eof place tokens).result := by
  cases tokens with
  | nil => exact .failed _ []
  | cons token rest =>
    rw [result_expect_cons]
    split
    · exact .behind token (.done token rest)
    · exact .failed _ (token :: rest)

/-- An objection to one argument or parameter too many is one error at most. -/
lemma length_limit_le (cause : SyntaxCause) (tokens : List Token) (count : Nat) :
    (if argumentLimit ≤ count then [SyntaxError.mk cause (front eof tokens)] else []).length ≤
      1 := by
  split
  · exact Nat.le_refl 1
  · exact Nat.zero_le 1

/-- The rules of expressions pay for their errors, up to one for the operator in front of an invalid
assignment and one for the comma in front of an argument too many. -/
lemma expression_frugal :
    (∀ power tokens, Pays tokens (expression eof power tokens).result) ∧
    (∀ power left tokens,
      (continued eof power left tokens).result.Frugal tokens (tokens.length + 1)) ∧
    (∀ left token c tokens,
      (extended eof left token c tokens).result.Frugal tokens (tokens.length + 2)) ∧
    (∀ count tokens, (arguments eof count tokens).result.Frugal tokens (tokens.length + 2)) ∧
    (∀ tokens, Pays tokens (operand eof tokens).result) := by
  apply expression.mutual_induct eof
  case case1 =>
    intro power tokens operand continued
    rw [result_expression]
    exact Bounded.frugal_bind operand continued
  case case2 =>
    intro power left
    rw [result_continued_nil]
    exact .done left []
  case case3 =>
    intro power left token rest none
    rw [result_continued_cons, none]
    exact .done left (token :: rest)
  case case4 =>
    intro power left token rest c found lt
    rw [result_continued_cons, found]
    dsimp only
    rw [if_pos lt]
    exact .done left (token :: rest)
  case case5 =>
    intro power left token rest c found le extended continued
    rw [result_continued_cons, found]
    dsimp only
    rw [if_neg le]
    -- The operator itself pays for what it extends.
    have paid := extended.widen (List.suffix_cons token rest) (Nat.le_refl _)
    exact Bounded.frugal_bind paid continued
  case case6 =>
    intro left token tokens closing
    rw [result_extended_call, if_pos closing]
    exact ((expect_frugal eof _ tokens).map _).widen (List.suffix_refl _) (by omega)
  case case7 =>
    intro left token tokens notClosing arguments
    rw [result_extended_call, if_neg notClosing]
    exact arguments.bind fun _ rest => ((expect_frugal eof _ rest).map _).loose
  case case8 =>
    intro left token tokens op right
    rw [result_extended_binary]
    exact (right.map _).widen (List.suffix_refl _) (by omega)
  case case9 =>
    intro left token tokens op right
    rw [result_extended_logical]
    exact (right.map _).widen (List.suffix_refl _) (by omega)
  case case10 =>
    intro left token tokens right
    rw [result_extended_assign]
    refine (right.bind_add 1 fun value rest => ?_).widen (List.suffix_refl _) (by omega)
    split
    · exact (Parsed.Frugal.done _ rest).widen (List.suffix_refl _) (by omega)
    · refine ⟨List.suffix_refl rest, ?_⟩
      rw [List.length_singleton]
      omega
  case case11 =>
    intro count tokens first others
    rw [result_arguments]
    have limit := length_limit_le eof .tooManyArguments tokens count
    refine (Parsed.Frugal.after (n := max tokens.length 1) ?_ _).widen (List.suffix_refl _) (by omega)
    refine Bounded.frugal_bind first fun e rest shorter => ?_
    cases rest with
    | nil => exact .done [e] []
    | cons comma rest =>
      dsimp only
      split
      · exact ((others comma rest shorter).map _).widen (List.suffix_cons comma rest) (Nat.le_refl _)
      · exact .done [e] (comma :: rest)
  case case12 =>
    rw [result_operand_nil]
    exact .failed _ []
  case case13 =>
    intro token rest none
    rw [result_operand_cons, none]
    exact .failed _ (token :: rest)
  case case14 =>
    intro token rest atom leading
    rw [result_operand_cons, leading]
    exact .behind token (.done _ rest)
  case case15 =>
    intro token rest leading
    rw [result_operand_cons, leading]
    exact .behind token (.done _ rest)
  case case16 =>
    intro token rest op leading inner
    rw [result_operand_cons, leading]
    exact .behind token (inner.map _).loose
  case case17 =>
    intro token rest leading inner
    rw [result_operand_cons, leading]
    exact .behind token (inner.bind fun _ rest => ((expect_frugal eof _ rest).map _).loose).loose

/-- An expression with a token behind it pays for its errors. -/
lemma closed_frugal (place : Expectation) (tokens : List Token) :
    Pays tokens (closed eof place tokens).result := by
  rw [result_closed]
  refine ((expression_frugal eof).1 0 tokens).bind fun _ rest => ?_
  exact ((expect_frugal eof place rest).map _).loose

/-- An expression that may be missing pays for its errors. -/
lemma optional_frugal (place : Expectation) (tokens : List Token) :
    Pays tokens (optional eof place tokens).result := by
  rw [result_optional]
  split
  · exact (expect_frugal eof place tokens).map _
  · refine ((expression_frugal eof).1 0 tokens).bind fun _ rest => ?_
    exact ((expect_frugal eof place rest).map _).loose

/-- An expression between two tokens pays for its errors. -/
lemma enclosed_frugal (start stop : Expectation) (tokens : List Token) :
    Pays tokens (enclosed eof start stop tokens).result := by
  rw [result_enclosed]
  exact (expect_frugal eof start tokens).bind fun _ rest => (closed_frugal eof stop rest).loose

/-- A variable declaration pays for its errors. -/
lemma variableDeclaration_frugal (tokens : List Token) :
    Pays tokens (variableDeclaration eof tokens).result := by
  rw [result_variableDeclaration]
  refine (expect_frugal eof _ tokens).bind fun name rest => ?_
  cases rest with
  | nil => exact .failed _ []
  | cons token rest =>
    dsimp only
    split
    · exact (Parsed.Frugal.behind token ((closed_frugal eof _ rest).map _).loose).loose
    · exact ((expect_frugal eof _ (token :: rest)).map _).loose

/-- Parameters pay for their errors, up to one for the comma in front of a parameter too many. -/
lemma parameters_frugal (count : Nat) (tokens : List Token) :
    (parameters eof count tokens).result.Frugal tokens
      ((if argumentLimit ≤ count then 1 else 0) + max tokens.length 1) := by
  induction count, tokens using parameters.induct with
  | case1 count tokens others =>
    rw [result_parameters]
    have limit : (if argumentLimit ≤ count then
        [SyntaxError.mk .tooManyParameters (front eof tokens)] else []).length =
          if argumentLimit ≤ count then 1 else 0 := apply_ite List.length _ _ _
    rw [← limit]
    refine Parsed.Frugal.after (Bounded.frugal_bind (expect_frugal eof _ tokens) ?_) _
    intro name rest shorter
    cases rest with
    | nil => exact .done [name] []
    | cons comma rest =>
      dsimp only
      split
      · refine ((others comma rest shorter).map _).widen (List.suffix_cons comma rest) ?_
        rw [List.length_cons]
        split
        · omega
        · omega
      · exact .done [name] (comma :: rest)

/-- Parameters with their parenthesis pay for their errors. -/
lemma parameterList_frugal (tokens : List Token) :
    Pays tokens (parameterList eof tokens).result := by
  rw [result_parameterList]
  split
  · exact (expect_frugal eof _ tokens).map _
  · have names := parameters_frugal eof 0 tokens
    rw [if_neg (by decide), Nat.zero_add] at names
    exact names.bind fun _ rest => ((expect_frugal eof _ rest).map _).loose

/-- The name and the parameters of a function pay for their errors. -/
lemma signature_frugal (tokens : List Token) : Pays tokens (signature eof tokens).result := by
  rw [result_signature]
  refine (expect_frugal eof _ tokens).bind fun name rest => ?_
  refine ((expect_frugal eof _ rest).bind fun _ rest => ?_).loose
  refine ((parameterList_frugal eof rest).bind fun names rest => ?_).loose
  exact ((expect_frugal eof _ rest).map _).loose

/-- The initializer of a loop pays for its errors. -/
lemma initializer_frugal (tokens : List Token) : Pays tokens (initializer eof tokens).result := by
  cases tokens with
  | nil =>
    rw [result_initializer_nil]
    exact (closed_frugal eof _ []).map _
  | cons token rest =>
    rw [result_initializer_cons]
    split
    · exact .behind token (.done none rest)
    · split
      · exact .behind token ((variableDeclaration_frugal eof rest).map _).loose
      · exact (closed_frugal eof _ (token :: rest)).map _

/-- The parts of a loop pay for their errors. -/
lemma clauses_frugal (tokens : List Token) : Pays tokens (clauses eof tokens).result := by
  rw [result_clauses]
  refine (expect_frugal eof _ tokens).bind fun _ rest => ?_
  refine ((initializer_frugal eof rest).bind fun _ rest => ?_).loose
  refine ((optional_frugal eof _ rest).bind fun _ rest => ?_).loose
  exact ((optional_frugal eof _ rest).map _).loose

/-- Reading resumes at the end of what was left. -/
lemma resume_suffix (tokens : List Token) : resume tokens <:+ tokens := by
  induction tokens with
  | nil => exact List.suffix_refl []
  | cons token rest ih =>
    rw [resume]
    split
    · exact List.suffix_cons token rest
    · exact ih.trans (List.suffix_cons token rest)

/-- Recovery pays for the error with a token that it skips, or with the one that the rule kept, and
goes on behind the first token. -/
lemma recovered_frugal {token : Token} {rest rest' : List Token} {errors : List SyntaxError}
    {p : Bounded Stmt (token :: rest).length} {statement? : Option Stmt} {h shorter}
    (pays : Pays (token :: rest) p.result)
    (found : recover h p = ⟨statement?, rest', errors, shorter⟩) :
    rest' <:+ rest ∧ errors.length + rest'.length ≤ (token :: rest).length := by
  have kept : rest' <:+ token :: rest ∧
      errors.length + rest'.length ≤ (token :: rest).length := by
    obtain ⟨result, within⟩ := p
    have one : max (token :: rest).length 1 = (token :: rest).length :=
      Nat.max_eq_left (Nat.le_add_left 1 rest.length)
    rw [Pays, one] at pays
    cases result with
    | done statement left reported =>
      cases found
      exact ⟨pays.1, Nat.le_of_lt pays.2⟩
    | failed error left reported =>
      cases found
      have bound := pays.2
      have skipped := @length_resume_lt left
      have least := length_resume_le left
      refine ⟨(resume_suffix left).trans pays.1, ?_⟩
      rw [List.length_append, List.length_singleton]
      omega
  refine ⟨?_, kept.2⟩
  rcases List.suffix_cons_iff.mp kept.1 with rfl | behind
  · exact absurd shorter (Nat.lt_irrefl _)
  · exact behind

/-- The rules of statements pay for their errors. A block leaves its last error to the brace in front
of it, since what stands in it may have paid for other errors with all of its tokens. -/
lemma declaration_frugal :
    (∀ tokens, Pays tokens (declaration eof tokens).result) ∧
    (∀ tokens, Pays tokens (function eof tokens).result) ∧
    (∀ tokens, (block eof tokens).result.Frugal tokens (tokens.length + 1)) ∧
    (∀ tokens, Pays tokens (statement eof tokens).result) ∧
    (∀ condition tokens, Pays tokens (branches eof condition tokens).result) := by
  apply declaration.mutual_induct eof
  case case1 =>
    intro statement
    rw [result_declaration_nil]
    exact statement
  case case2 =>
    intro token rest isFun function
    rw [result_declaration_cons, if_pos isFun]
    exact .behind token function.loose
  case case3 =>
    intro token rest notFun isVar
    rw [result_declaration_cons, if_neg notFun, if_pos isVar]
    exact .behind token (variableDeclaration_frugal eof rest).loose
  case case4 =>
    intro token rest notFun notVar statement
    rw [result_declaration_cons, if_neg notFun, if_neg notVar]
    exact statement
  case case5 =>
    intro tokens block
    rw [result_function]
    refine Bounded.frugal_bind (signature_frugal eof tokens) fun signature rest shorter => ?_
    obtain ⟨name, names⟩ := signature
    exact (block rest shorter).map _
  case case6 =>
    rw [result_block_nil]
    exact .failed _ []
  case case7 =>
    intro token rest isBrace
    rw [result_block_cons, if_pos isBrace]
    exact (Parsed.Frugal.behind token (.done [] rest)).loose
  case case8 =>
    intro token rest notBrace statement? rest' errors shorter found declaration block
    obtain ⟨part, paid⟩ := recovered_frugal declaration found
    rw [result_block_cons, if_neg notBrace, recovered_eq found]
    exact ((block.map _).after errors).widen (part.trans (List.suffix_cons token rest)) (by omega)
  case case9 =>
    rw [result_statement_nil]
    exact (closed_frugal eof _ []).map _
  case case10 =>
    intro token rest kind
    rw [result_statement_cons, kind]
    exact .behind token ((closed_frugal eof _ rest).map _).loose
  case case11 =>
    intro token rest kind
    rw [result_statement_cons, kind]
    exact .behind token ((optional_frugal eof _ rest).map _).loose
  case case12 =>
    intro token rest kind block
    rw [result_statement_cons, kind]
    exact .behind token (block.map _)
  case case13 =>
    intro token rest kind branches
    rw [result_statement_cons, kind]
    refine .behind token (Parsed.Frugal.loose ?_)
    exact Bounded.frugal_bind (enclosed_frugal eof _ _ rest) fun condition rest shorter =>
      (branches condition rest shorter).loose
  case case14 =>
    intro token rest kind statement
    rw [result_statement_cons, kind]
    refine .behind token (Parsed.Frugal.loose ?_)
    exact Bounded.frugal_bind (enclosed_frugal eof _ _ rest) fun condition rest shorter =>
      ((statement rest shorter).map _).loose
  case case15 =>
    intro token rest kind statement
    rw [result_statement_cons, kind]
    refine .behind token (Parsed.Frugal.loose ?_)
    exact Bounded.frugal_bind (clauses_frugal eof rest) fun clauses rest shorter =>
      ((statement rest shorter).map _).loose
  case case16 =>
    intro token rest _ _ _ _ _ _
    rw [result_statement_cons]
    split
    case h_7 => exact (closed_frugal eof _ (token :: rest)).map _
    all_goals contradiction
  case case17 =>
    intro condition tokens statement others
    rw [result_branches]
    refine Bounded.frugal_bind statement fun thenBranch rest shorter => ?_
    cases rest with
    | nil => exact .done _ []
    | cons token rest =>
      dsimp only
      split
      · exact (Parsed.Frugal.behind token ((others [] token rest shorter).map _).loose).loose
      · exact .done _ (token :: rest)

end Parse

end Lox
