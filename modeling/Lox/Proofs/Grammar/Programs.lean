import Lox.Proofs.Grammar.Statements
import Lox.Proofs.Syntax.Loops

/-!
# Programs of the grammar

The parser accepts exactly the programs of the grammar and builds their trees, in which a `while`
loop stands for every `for` loop. Since the parser is a function, no list of tokens is derived with
two trees.
-/

namespace Lox

open Parse

namespace Grammar

/-- Nothing is to be desugared in a variable declaration. -/
lemma Variable.desugar {ts : List Token} {s : Stmt} (h : Variable ts s) : s.desugar = s := by
  cases h <;> rfl

/-- Nothing is to be desugared in the initializer of a loop. -/
lemma Initializer.desugar {ts : List Token} {s? : Option Stmt} (h : Initializer ts s?) :
    s?.map Stmt.desugar = s? := by
  cases h with
  | none _ => rfl
  | var _ derived => exact congrArg some derived.desugar
  | expression _ _ => rfl

/-- A `for` loop of the grammar is desugared to the `while` loop of its parts. -/
lemma Clauses.desugar {ts : List Token} {parts : ForClauses} (h : Clauses ts parts) (body : Stmt) :
    (parts.statement body).desugar = parts.whileLoop body.desugar := by
  rw [ForClauses.desugar_statement]
  obtain ⟨_, initializer, _, _, _, _⟩ := h
  dsimp only
  rw [initializer.desugar]

mutual

/-- Desugaring puts `while` loops in the place of `for` loops. -/
lemma Statement.desugar {ending : Ending} {ts : List Token} {s : Stmt}
    (h : Statement ForClauses.statement ending ts s) :
    Statement ForClauses.whileLoop ending ts s.desugar :=
  match h with
  | .expression e stop => .expression e stop
  | .print keyword e stop => .print keyword e stop
  | .ret keyword value stop => .ret keyword value stop
  | .block start body => .block start body.desugar
  | .ifThen keyword condition branch => .ifThen keyword condition branch.desugar
  | .ifElse keyword condition thenBranch other elseBranch =>
    .ifElse keyword condition thenBranch.desugar other elseBranch.desugar
  | .whileLoop keyword condition body => .whileLoop keyword condition body.desugar
  | .forLoop keyword clauses body => by
    rw [clauses.desugar]
    exact .forLoop keyword clauses body.desugar

/-- A declaration with `for` loops is desugared to one with `while` loops in their place. -/
lemma Declaration.desugar {ts : List Token} {s : Stmt}
    (h : Declaration ForClauses.statement ts s) : Declaration ForClauses.whileLoop ts s.desugar :=
  match h with
  | .var keyword rest => by
    rw [rest.desugar]
    exact .var keyword rest
  | .function keyword name start parameters stop brace body =>
    .function keyword name start parameters stop brace body.desugar
  | .statement inner => .statement inner.desugar

/-- The declarations of a block are desugared one by one. -/
lemma Block.desugar {ts : List Token} {ss : List Stmt} (h : Block ForClauses.statement ts ss) :
    Block ForClauses.whileLoop ts (Stmt.desugarAll ss) :=
  match h with
  | .nil stop => .nil stop
  | .cons first others => .cons first.desugar others.desugar

end

mutual

/-- A statement with `while` loops in the place of `for` loops is a desugared one. -/
lemma Statement.of_desugared {ending : Ending} {ts : List Token} {s : Stmt}
    (h : Statement ForClauses.whileLoop ending ts s) :
    ∃ s', Statement ForClauses.statement ending ts s' ∧ s'.desugar = s := by
  match h with
  | .expression e stop => exact ⟨_, .expression e stop, rfl⟩
  | .print keyword e stop => exact ⟨_, .print keyword e stop, rfl⟩
  | .ret keyword value stop => exact ⟨_, .ret keyword value stop, rfl⟩
  | .block start body =>
    obtain ⟨ss, derived, rfl⟩ := body.of_desugared
    exact ⟨_, .block start derived, rfl⟩
  | .ifThen keyword condition branch =>
    obtain ⟨t, derived, rfl⟩ := branch.of_desugared
    exact ⟨_, .ifThen keyword condition derived, rfl⟩
  | .ifElse keyword condition thenBranch other elseBranch =>
    obtain ⟨t, derived, rfl⟩ := thenBranch.of_desugared
    obtain ⟨u, derived', rfl⟩ := elseBranch.of_desugared
    exact ⟨_, .ifElse keyword condition derived other derived', rfl⟩
  | .whileLoop keyword condition body =>
    obtain ⟨t, derived, rfl⟩ := body.of_desugared
    exact ⟨_, .whileLoop keyword condition derived, rfl⟩
  | .forLoop keyword clauses body =>
    obtain ⟨t, derived, rfl⟩ := body.of_desugared
    exact ⟨_, .forLoop keyword clauses derived, clauses.desugar t⟩

/-- A declaration with `while` loops in the place of `for` loops is a desugared one. -/
lemma Declaration.of_desugared {ts : List Token} {s : Stmt}
    (h : Declaration ForClauses.whileLoop ts s) :
    ∃ s', Declaration ForClauses.statement ts s' ∧ s'.desugar = s := by
  match h with
  | .var keyword rest => exact ⟨_, .var keyword rest, rest.desugar⟩
  | .function keyword name start parameters stop brace body =>
    obtain ⟨ss, derived, rfl⟩ := body.of_desugared
    exact ⟨_, .function keyword name start parameters stop brace derived, rfl⟩
  | .statement inner =>
    obtain ⟨s', derived, rfl⟩ := inner.of_desugared
    exact ⟨s', .statement derived, rfl⟩

/-- Declarations up to a closing brace with `while` loops in the place of `for` loops are desugared.
-/
lemma Block.of_desugared {ts : List Token} {ss : List Stmt}
    (h : Block ForClauses.whileLoop ts ss) :
    ∃ ss', Block ForClauses.statement ts ss' ∧ Stmt.desugarAll ss' = ss := by
  match h with
  | .nil stop => exact ⟨[], .nil stop, rfl⟩
  | .cons first others =>
    obtain ⟨s', derived, rfl⟩ := first.of_desugared
    obtain ⟨ss', derived', rfl⟩ := others.of_desugared
    exact ⟨s' :: ss', .cons derived derived', rfl⟩

end

/-- The programs with `while` loops in the place of `for` loops are the desugared ones. -/
lemma Declarations.desugar_iff {ts : List Token} {program : Program} :
    Declarations ForClauses.whileLoop ts program ↔
      ∃ program' : Program, Declarations ForClauses.statement ts program' ∧
        program'.desugar = program := by
  constructor
  · intro h
    induction h with
    | nil => exact ⟨[], .nil, rfl⟩
    | cons first _ ih =>
      obtain ⟨s', derived, rfl⟩ := first.of_desugared
      obtain ⟨program', derived', rfl⟩ := ih
      exact ⟨s' :: program', .cons derived derived', rfl⟩
  · rintro ⟨program', h, rfl⟩
    induction h with
    | nil => exact .nil
    | cons first _ ih => exact .cons first.desugar ih

/-- Programs one after another are a program. -/
lemma Declarations.append {forLoop : ForClauses → Stmt → Stmt} {ts us : List Token}
    {program program' : Program} (first : Declarations forLoop ts program)
    (second : Declarations forLoop us program') :
    Declarations forLoop (ts ++ us) (program ++ program') := by
  induction first with
  | nil => exact second
  | cons declaration _ ih =>
    rw [List.append_assoc]
    exact .cons declaration ih

/-- A program in front of a closing brace is the body of a block. -/
lemma Declarations.body {forLoop : ForClauses → Stmt → Stmt} {stop : Token} {ts : List Token}
    {program : Program} (h : Declarations forLoop ts program) (stops : stop.kind = .rightBrace) :
    Block forLoop (ts ++ [stop]) program := by
  induction h with
  | nil => exact .nil stops
  | cons declaration _ ih =>
    rw [List.append_assoc]
    exact .cons declaration ih

/-- A program between braces is a program of one block. -/
lemma Declarations.block {forLoop : ForClauses → Stmt → Stmt} {start stop : Token} {ts : List Token}
    {program : Program} (h : Declarations forLoop ts program) (starts : start.kind = .leftBrace)
    (stops : stop.kind = .rightBrace) :
    Declarations forLoop (start :: (ts ++ [stop])) [.block program] := by
  have alone := Declarations.cons (.statement (.block starts (h.body stops))) .nil
  rw [List.append_nil] at alone
  exact alone

end Grammar

section

variable {ts : List Token} {stop : Option Token} (noEnd : ∀ token ∈ ts, token.kind ≠ .eof)
  (isEnd : ∀ token ∈ stop, token.kind = .eof)

include noEnd isEnd

/-- The tokens before the end mark are all but the mark. -/
lemma Parse.beforeEnd_append : beforeEnd (ts ++ stop.toList) = ts := by
  rw [beforeEnd, List.takeWhile_append_of_pos fun token mem => decide_eq_true (noEnd token mem)]
  cases stop with
  | none => exact List.append_nil ts
  | some token =>
    have kind := isEnd token rfl
    rw [Option.toList_some, List.takeWhile_cons_of_neg (by simp [kind]), List.append_nil]

/-- The parser reads a program with loops without errors exactly if the grammar derives it. -/
lemma Program.parseLoops_eq_iff (program : Program) :
    Program.parseLoops (ts ++ stop.toList) = (program, []) ↔
      Grammar.Declarations ForClauses.statement ts program := by
  rw [Program.parseLoops, Parse.beforeEnd_append noEnd isEnd]
  exact Grammar.declarations_iff _

/-- The parser reads a desugared program without errors exactly if the grammar derives it. -/
lemma Program.parse_eq_iff_derived (program : Program) :
    Program.parse (ts ++ stop.toList) = (program, []) ↔
      Grammar.Declarations ForClauses.whileLoop ts program := by
  rw [Grammar.Declarations.desugar_iff, Program.parse]
  constructor
  · intro read
    obtain ⟨rfl, clean⟩ := Prod.mk.inj read
    exact ⟨_, (Program.parseLoops_eq_iff noEnd isEnd _).mp (Prod.ext rfl clean), rfl⟩
  · rintro ⟨program', derived, rfl⟩
    rw [(Program.parseLoops_eq_iff noEnd isEnd program').mpr derived]

omit isEnd in
/-- No tokens are derived with two trees. -/
lemma Grammar.Declarations.unique {program program' : Program}
    (derived : Declarations ForClauses.whileLoop ts program)
    (derived' : Declarations ForClauses.whileLoop ts program') : program = program' := by
  have isEnd : ∀ token ∈ (none : Option Token), token.kind = .eof := nofun
  have read := (Program.parse_eq_iff_derived noEnd isEnd program).mpr derived
  rw [(Program.parse_eq_iff_derived noEnd isEnd program').mpr derived'] at read
  exact (Prod.mk.inj read).1.symm

/-- The parser accepts exactly what the grammar derives and builds its tree, of which there is only
one. -/
theorem Program.parse_eq_iff (program : Program) :
    (Program.parse (ts ++ stop.toList) = (program, []) ↔
      Grammar.Declarations ForClauses.whileLoop ts program) ∧
    ∀ program', Grammar.Declarations ForClauses.whileLoop ts program →
      Grammar.Declarations ForClauses.whileLoop ts program' → program = program' :=
  ⟨Program.parse_eq_iff_derived noEnd isEnd program,
    fun _ derived derived' => derived.unique noEnd derived'⟩

end

/-- The tokens of `for (;;) if (a) if (b) c; else d;`, in which the `else` belongs to the second
`if`. -/
def Program.nestedBranches : List Token :=
  let token (kind : Kind) (lexeme : String) : Token := ⟨kind, lexeme, none, 1, ⟨0, 0⟩⟩
  [token .kwFor "for", token .leftParen "(", token .semicolon ";", token .semicolon ";",
    token .rightParen ")", token .kwIf "if", token .leftParen "(", token .identifier "a",
    token .rightParen ")", token .kwIf "if", token .leftParen "(", token .identifier "b",
    token .rightParen ")", token .identifier "c", token .semicolon ";", token .kwElse "else",
    token .identifier "d", token .semicolon ";"]

/-- The grammar derives a loop around an `if` whose branch is an `if` with an `else`. -/
theorem Program.nestedBranches_derived :
    (∀ token ∈ Program.nestedBranches, token.kind ≠ .eof) ∧
    (∀ token ∈ some (Token.endMark 1 0), token.kind = .eof) ∧
    ∃ a b c d, Grammar.Declarations ForClauses.whileLoop Program.nestedBranches
      [.block [.loop (.literal (.boolean true)) none
        (.ifThen (.ident a) (.ifElse (.ident b) (.expression (.ident c)) (.expression (.ident d))))]] := by
  have noEnd : ∀ token ∈ Program.nestedBranches, token.kind ≠ .eof := by decide
  have isEnd : ∀ token ∈ some (Token.endMark 1 0), token.kind = .eof := by decide
  have read : ∃ a b c d,
      Program.parse (Program.nestedBranches ++ (some (Token.endMark 1 0)).toList) =
        ([.block [.loop (.literal (.boolean true)) none
          (.ifThen (.ident a)
            (.ifElse (.ident b) (.expression (.ident c)) (.expression (.ident d))))]], []) :=
    ⟨_, _, _, _, by cbv⟩
  obtain ⟨a, b, c, d, read⟩ := read
  exact ⟨noEnd, isEnd, a, b, c, d, (Program.parse_eq_iff noEnd isEnd _).1.mp read⟩

end Lox
