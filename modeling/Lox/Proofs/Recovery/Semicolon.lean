import Lox.Proofs.Recovery.Local

/-!
# Forgotten semicolons

An expression, a print statement or a variable declaration without its semicolon fails at the token
behind it. Recovery drops that token first, also if it starts a statement. So the statement behind a
forgotten semicolon is lost as well: reading resumes only behind the next semicolon or in front of
another token that starts a statement.
-/

namespace Lox

open Parse

/-- The place of the semicolon of an expression, a print statement or a variable declaration. -/
def Stmt.end? : Stmt → Option Expectation
  | .expression _ => some .expressionEnd
  | .print _ => some .printEnd
  | .var _ _ => some .variableEnd
  | _ => none

/-- The tokens make a statement with a semicolon in the place behind them. -/
structure Unfinished (tokens : List Token) (place : Expectation) : Prop where
  noEnd : ∀ token ∈ tokens, token.kind ≠ .eof
  finished : ∃ stop s, stop.kind = .semicolon ∧ Program.parse (tokens ++ [stop]) = ([s], []) ∧
    s.end? = some place

/-- Behind `token`, the tokens `skipped` go up to the first semicolon, or up to the first token that
starts a statement, whichever comes first; `later` is what follows them. -/
structure Skips (token : Token) (skipped later : List Token) : Prop where
  noStart : ∀ t ∈ skipped, t.kind.startsStatement = false
  noSemicolon : ∀ t ∈ (token :: skipped).dropLast, t.kind ≠ .semicolon
  boundary : later = [] ∨ (∃ t ∈ (token :: skipped).getLast?, t.kind = .semicolon) ∨
    ∃ t ∈ later.head?, t.kind.startsStatement = true

namespace Parse

/-- Behind every token there is a next boundary. -/
lemma exists_skips (token : Token) (rest : List Token) :
    ∃ skipped later, rest = skipped ++ later ∧ Skips token skipped later := by
  induction rest generalizing token with
  | nil => exact ⟨[], [], rfl, nofun, nofun, .inl rfl⟩
  | cons next rest ih =>
    by_cases stops : token.kind = .semicolon ∨ next.kind.startsStatement = true
    · refine ⟨[], next :: rest, rfl, nofun, nofun, .inr ?_⟩
      exact stops.imp (fun semicolon => ⟨token, rfl, semicolon⟩) fun starts => ⟨next, rfl, starts⟩
    · obtain ⟨notSemicolon, notStart⟩ := not_or.mp stops
      obtain ⟨skipped, later, rfl, skips⟩ := ih next
      refine ⟨next :: skipped, later, rfl, ?_, ?_, skips.boundary⟩
      · exact List.forall_mem_cons.mpr ⟨eq_false_of_ne_true notStart, skips.noStart⟩
      · exact List.forall_mem_cons.mpr ⟨notSemicolon, skips.noSemicolon⟩

/-- Recovery drops a token, whatever it is, and then all up to the next boundary. -/
lemma resume_skips {token : Token} {skipped later : List Token}
    (skips : Skips token skipped later) : resume (token :: (skipped ++ later)) = later := by
  induction skipped generalizing token with
  | nil =>
    rcases skips.boundary with rfl | ⟨t, last, isSemicolon⟩ | ⟨t, head, starts⟩
    · simp [resume]
    · cases last
      exact if_pos (.inl isSemicolon)
    · have stops : later.head?.any (·.kind.startsStatement) = true := by
        rw [Option.mem_def.mp head, Option.any_some, starts]
      exact if_pos (.inr stops)
  | cons next skipped ih =>
    obtain ⟨notStart, noStart⟩ := List.forall_mem_cons.mp skips.noStart
    obtain ⟨notSemicolon, noSemicolon⟩ := List.forall_mem_cons.mp skips.noSemicolon
    have goesOn : ¬ (token.kind = .semicolon ∨
        (next :: skipped ++ later).head?.any (·.kind.startsStatement)) := by
      rintro (isSemicolon | starts)
      · exact notSemicolon isSemicolon
      · exact absurd (notStart.symm.trans starts) (by decide)
    apply (if_neg goesOn).trans
    exact ih ⟨noStart, noSemicolon, skips.boundary⟩

end Parse

/-- A token that starts a statement neither goes on with an expression nor ends anything. -/
lemma Kind.startsStatement_cases {kind : Kind} (starts : kind.startsStatement = true) :
    Continuation.ofKind? kind = none ∧ kind ≠ .equal ∧ kind ≠ .semicolon ∧ kind ≠ .eof := by
  revert starts
  cases kind <;> decide

namespace Grammar

variable {ts : List Token} {first : Token} (starts : first.kind.startsStatement = true)

include starts

/-- No token that starts a statement is in the place of a semicolon. -/
lemma expect_rejects {place : Expectation} (isSemicolon : place.kind = .semicolon) (eof : Token)
    (rest : List Token) :
    (expect eof place (first :: rest)).result =
      .failed ⟨.expected place, first⟩ (first :: rest) [] := by
  obtain ⟨-, -, notSemicolon, -⟩ := Kind.startsStatement_cases starts
  rw [result_expect_cons, if_neg (isSemicolon ▸ notSemicolon)]

/-- An expression ends in front of such a token and lacks its semicolon. -/
lemma Expression.closed_rejects {e : Expr} (derived : Expression .assignment ts e)
    {place : Expectation} (isSemicolon : place.kind = .semicolon) (eof : Token)
    (rest : List Token) :
    (closed eof place (ts ++ first :: rest)).result =
      .failed ⟨.expected place, first⟩ (first :: rest) [] := by
  obtain ⟨none, -⟩ := Kind.startsStatement_cases starts
  have read := derived.read eof (Stops.of_none none 0 rest)
  rw [result_closed, read, Parsed.bind_done, expect_rejects starts isSemicolon]
  rfl

/-- So does a variable declaration. -/
lemma Variable.rejects {s : Stmt} (derived : Variable ts s) (eof : Token) (rest : List Token) :
    (variableDeclaration eof (ts.dropLast ++ first :: rest)).result =
      .failed ⟨.expected .variableEnd, first⟩ (first :: rest) [] := by
  obtain ⟨-, notEqual, -⟩ := Kind.startsStatement_cases starts
  cases derived with
  | @none name stop isName _ =>
    have named : (expect eof .variableName (name :: first :: rest)).result = _ :=
      expect_done eof isName _
    have missing : (expect eof .variableEnd (first :: rest)).result = _ :=
      expect_rejects starts rfl eof rest
    have shorter : [name, stop].dropLast = [name] := rfl
    rw [shorter, List.singleton_append, result_variableDeclaration, named, Parsed.bind_done]
    dsimp only
    rw [if_neg notEqual, missing]
    rfl
  | @some name token stop us e isName isEqual value _ =>
    have named : (expect eof .variableName (name :: token :: (us ++ first :: rest))).result = _ :=
      expect_done eof isName _
    have missing : (closed eof .variableEnd (us ++ first :: rest)).result = _ :=
      value.closed_rejects starts rfl eof rest
    rw [← List.cons_append, ← List.cons_append, List.dropLast_concat, List.cons_append,
      List.cons_append, result_variableDeclaration, named, Parsed.bind_done]
    dsimp only
    rw [if_pos isEqual, missing]
    rfl

/-- Without its semicolon, a statement fails at the token behind it and keeps nothing. -/
lemma Declaration.rejects {s : Stmt} (derived : Declaration ForClauses.statement ts s)
    {place : Expectation} (ends : s.end? = some place) (eof : Token) (rest : List Token) :
    (declaration eof (ts.dropLast ++ first :: rest)).result =
      .failed ⟨.expected place, first⟩ (first :: rest) [] := by
  cases derived with
  | @var keyword us s isVar declared =>
    have missing := declared.rejects starts eof rest
    have place : s.end? = some .variableEnd := by cases declared <;> rfl
    cases place.symm.trans ends
    have notFun : keyword.kind ≠ .kwFun := by rw [isVar]; decide
    have some : us ≠ [] := by cases declared <;> exact List.cons_ne_nil _ _
    rw [List.dropLast_cons_of_ne_nil some, List.cons_append, result_declaration_cons,
      if_neg notFun, if_pos isVar]
    exact missing
  | function => cases ends
  | statement inner =>
    cases inner with
    | @expression stop us e value _ =>
      cases ends
      have missing : (closed eof .expressionEnd (us ++ first :: rest)).result = _ :=
        value.closed_rejects starts rfl eof rest
      obtain ⟨token, us, rfl, mem⟩ := value.first_mem
      have notFun : token.kind ≠ .kwFun := ne_of_mem mem (by decide)
      have notVar : token.kind ≠ .kwVar := ne_of_mem mem (by decide)
      rw [List.dropLast_concat, List.cons_append, result_declaration_cons, if_neg notFun,
        if_neg notVar, result_statement_operand _ mem, ← List.cons_append, missing]
      rfl
    | @print keyword stop us e isPrint value _ =>
      cases ends
      have missing : (closed eof .printEnd (us ++ first :: rest)).result = _ :=
        value.closed_rejects starts rfl eof rest
      rw [← List.cons_append, List.dropLast_concat, List.cons_append, result_declaration_cons,
        result_statement_cons, isPrint]
      dsimp only
      rw [missing]
      rfl
    | _ => cases ends

end Grammar

/-- Desugaring leaves these statements as they are. -/
lemma Stmt.end?_desugar (s : Stmt) : s.desugar.end? = s.end? := by
  cases s with
  | loop condition step body => cases step <;> rfl
  | _ => rfl

namespace Unfinished

variable {tokens : List Token} {place : Expectation} (h : Unfinished tokens place)

include h

/-- With the semicolon, unfinished tokens are derived. -/
lemma exists_derived :
    ∃ stop s, Grammar.Declaration ForClauses.statement (tokens ++ [stop]) s ∧
      s.end? = some place := by
  obtain ⟨noEnd, stop, s, isStop, read, ends⟩ := h
  have noEnd' : ∀ token ∈ tokens ++ [stop], token.kind ≠ .eof := by
    rw [List.forall_mem_append, List.forall_mem_singleton, isStop]
    exact ⟨noEnd, by decide⟩
  obtain ⟨program, derived, tree⟩ := Program.exists_derived noEnd' (congrArg Prod.snd read)
  rw [read] at tree
  obtain ⟨s', rfl, rfl⟩ := List.map_eq_singleton_iff.mp tree.symm
  rw [Stmt.end?_desugar] at ends
  generalize all : tokens ++ [stop] = ts at derived
  cases derived with
  | cons declaration others =>
    cases others
    rw [List.append_nil] at all
    exact ⟨stop, s', all ▸ declaration, ends⟩

variable {first : Token} (starts : first.kind.startsStatement = true)

include starts

/-- An unfinished statement, with another one behind it, does not begin with an `else`. -/
lemma noElse (rest : List Token) : Grammar.NoElse (tokens ++ first :: rest) := by
  obtain ⟨stop, s, derived, -⟩ := h.exists_derived
  cases tokens with
  | nil =>
    intro isElse
    rw [isElse] at starts
    exact nomatch starts
  | cons token others => exact derived.noElse []

/-- An unfinished statement is dropped with one error at the token behind it, if that starts a
statement. -/
lemma recovered_eq (eof : Token) (rest : List Token) :
    recovered (declaration eof (tokens ++ first :: rest)).result =
      (none, resume (first :: rest), [⟨.expected place, first⟩]) := by
  obtain ⟨stop, s, derived, ends⟩ := h.exists_derived
  have missing := derived.rejects starts ends eof rest
  rw [List.dropLast_concat] at missing
  rw [missing]
  rfl

/-- A program goes on at the next boundary. -/
lemma declarations_append (eof : Token) (rest : List Token) :
    declarations eof (tokens ++ first :: rest) =
      ((declarations eof (resume (first :: rest))).1,
        ⟨.expected place, first⟩ :: (declarations eof (resume (first :: rest))).2) :=
  declarations_of_recovered eof
    (List.append_ne_nil_of_right_ne_nil tokens (List.cons_ne_nil first rest))
    (h.recovered_eq starts eof rest)

end Unfinished

/-- A statement that lacks its semicolon costs the one behind it as well, which loses its first token
and all up to the next boundary. What is in front of both is kept, and what is behind the boundary is
read as it would be read alone. -/
theorem Program.parse_without_semicolon {before tokens behind : List Token} {place : Expectation}
    {first : Token} (noEnd : ∀ token ∈ before, token.kind ≠ .eof)
    (clean : (Program.parse before).2 = []) (h : Unfinished tokens place)
    (starts : first.kind.startsStatement = true) (noEnd' : ∀ token ∈ behind, token.kind ≠ .eof) :
    (∃ skipped later, behind = skipped ++ later ∧ Skips first skipped later) ∧
    ∀ skipped later, behind = skipped ++ later → Skips first skipped later →
      Program.parse (before ++ tokens ++ first :: behind) =
        ((Program.parse before).1 ++ (Program.parse later).1,
          ⟨.expected place, first⟩ :: (Program.parse later).2) := by
  refine ⟨exists_skips first behind, ?_⟩
  rintro skipped later rfl skips
  obtain ⟨program, derived, read⟩ := Program.exists_derived noEnd clean
  obtain ⟨noEndSkipped, noEndLater⟩ := List.forall_mem_append.mp noEnd'
  have ends : ∀ token ∈ before ++ tokens ++ first :: skipped, token.kind ≠ .eof := by
    simp only [List.forall_mem_append, List.forall_mem_cons]
    exact ⟨⟨noEnd, h.noEnd⟩, (Kind.startsStatement_cases starts).2.2.2, noEndSkipped⟩
  have regroup : before ++ tokens ++ first :: skipped ++ later =
      before ++ tokens ++ first :: (skipped ++ later) := by
    rw [List.append_assoc, List.cons_append]
  have own := Program.declarations_behind ends later
  have ends' := List.forall_mem_append.mpr ⟨ends, noEndLater⟩
  rw [regroup] at own ends'
  rw [beforeEnd_of_noEnd noEndLater] at own
  have whole : Program.parseLoops (before ++ tokens ++ first :: (skipped ++ later)) =
      (program ++ (Program.parseLoops later).1,
        ⟨.expected place, first⟩ :: (Program.parseLoops later).2) := by
    rw [Program.parseLoops, beforeEnd_of_noEnd ends', ← own]
    apply (congrArg (declarations _) (List.append_assoc before tokens _)).trans
    rw [derived.declarations_append _ (h.noElse starts _), h.declarations_append starts,
      resume_skips skips]
  rw [Program.parse_eq, whole, read, Program.parse_eq later]
  exact Prod.ext List.map_append rfl

/-- The tokens of `print a`. -/
def Program.unfinished : List Token :=
  [⟨.kwPrint, "print", none, 1, ⟨0, 5⟩⟩, ⟨.identifier, "a", none, 1, ⟨6, 1⟩⟩]

/-- The tokens are an unfinished `print` statement. -/
lemma Program.unfinished_print : Unfinished Program.unfinished .printEnd where
  noEnd := by decide
  finished := by
    have read : Program.parse (Program.unfinished ++ [⟨.semicolon, ";", none, 1, ⟨7, 1⟩⟩]) =
        ([.print (.ident ⟨.identifier, "a", none, 1, ⟨6, 1⟩⟩)], []) := by cbv
    exact ⟨⟨.semicolon, ";", none, 1, ⟨7, 1⟩⟩, _, rfl, read, rfl⟩

/-- In `print a fun f() { return a; } print b;`, the name and the parameters of the function are lost,
and its body is read as part of the program. -/
theorem Program.function_cut_in_half :
    let token (kind : Kind) (lexeme : String) : Token := ⟨kind, lexeme, none, 1, ⟨0, 0⟩⟩
    let skipped := [token .identifier "f", token .leftParen "(", token .rightParen ")",
      token .leftBrace "\x7b"]
    let later := [token .kwReturn "return", token .identifier "a", token .semicolon ";",
      token .rightBrace "\x7d", token .kwPrint "print", token .identifier "b",
      token .semicolon ";"]
    (∀ token ∈ Program.nestedBranches, token.kind ≠ .eof) ∧
    (Program.parse Program.nestedBranches).2 = [] ∧ Unfinished Program.unfinished .printEnd ∧
    (token .kwFun "fun").kind.startsStatement = true ∧
    (∀ token ∈ skipped ++ later, token.kind ≠ .eof) ∧
    ∃ loop, Program.parse (Program.nestedBranches ++ Program.unfinished ++
        token .kwFun "fun" :: (skipped ++ later)) =
      ([loop, .ret (token .kwReturn "return") (some (.ident (token .identifier "a"))),
          .print (.ident (token .identifier "b"))],
        [⟨.expected .printEnd, token .kwFun "fun"⟩,
          ⟨.noExpression, token .rightBrace "\x7d"⟩]) := by
  intro token skipped later
  have noEnd : ∀ token ∈ Program.nestedBranches, token.kind ≠ .eof := by decide
  have noEnd' : ∀ token ∈ skipped ++ later, token.kind ≠ .eof := by decide
  obtain ⟨loop, read⟩ : ∃ loop, Program.parse Program.nestedBranches = ([loop], []) :=
    ⟨_, by cbv⟩
  have clean : (Program.parse Program.nestedBranches).2 = [] := congrArg Prod.snd read
  have skips : Skips (token .kwFun "fun") skipped later :=
    ⟨by decide, by decide, .inr (.inr ⟨_, rfl, rfl⟩)⟩
  have alone : Program.parse later =
      ([.ret (token .kwReturn "return") (some (.ident (token .identifier "a"))),
        .print (.ident (token .identifier "b"))],
        [⟨.noExpression, token .rightBrace "\x7d"⟩]) := by cbv
  have starts : (token .kwFun "fun").kind.startsStatement = true := rfl
  have whole := (Program.parse_without_semicolon noEnd clean Program.unfinished_print starts
    noEnd').2 skipped later rfl skips
  refine ⟨noEnd, clean, Program.unfinished_print, starts, noEnd', loop, ?_⟩
  rw [whole, read, alone]
  rfl

/-- In `print a print b;`, the second statement is lost with the first. -/
theorem Program.second_statement_lost :
    ¬ ∀ (before tokens behind : List Token) (place : Expectation) (first : Token),
      (∀ token ∈ before, token.kind ≠ .eof) → (Program.parse before).2 = [] →
      Unfinished tokens place → (∀ token ∈ tokens.tail, token.kind.startsStatement = false) →
      first.kind ∈ [Kind.kwFun, .kwVar, .kwFor, .kwIf, .kwWhile, .kwPrint, .kwReturn] →
      (∀ token ∈ first :: behind, token.kind ≠ .eof) →
      (Program.parse (first :: behind)).2 = [] →
      ∃ error, error.token = first ∧
        Program.parse (before ++ tokens ++ first :: behind) =
          ((Program.parse before).1 ++ (Program.parse (first :: behind)).1, [error]) := by
  intro law
  let first : Token := ⟨.kwPrint, "print", none, 1, ⟨8, 5⟩⟩
  let behind : List Token :=
    [⟨.identifier, "b", none, 1, ⟨14, 1⟩⟩, ⟨.semicolon, ";", none, 1, ⟨15, 1⟩⟩]
  have alone : ∃ s, Program.parse (first :: behind) = ([s], []) := ⟨_, by cbv⟩
  have lost : (Program.parse ([] ++ Program.unfinished ++ first :: behind)).1 = [] := by cbv
  obtain ⟨s, read⟩ := alone
  obtain ⟨error, -, both⟩ := law [] Program.unfinished behind .printEnd first (by decide) (by cbv)
    Program.unfinished_print (by decide) (by decide) (by decide) (congrArg Prod.snd read)
  rw [both, read] at lost
  exact absurd lost (by simp)

end Lox
