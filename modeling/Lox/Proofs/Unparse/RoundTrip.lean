import Lox.Proofs.Unparse.Read
import Mathlib.Data.List.TakeWhile

/-!
# Programs survive being written and read

Whatever program the parser makes of some tokens, writing it and parsing what is written gives the
same program, and no objections but to the number of arguments and parameters.
-/

namespace Lox

open Parse Grammar

section

variable {eof : Token} {mint : Mint}

/-- A whole expression is read from the tokens with which it is written. -/
lemma Expr.Genuine.read {e : Expr} (h : e.Genuine .assignment) {rest : List Token}
    (stops : Stops 0 rest) :
    (expression eof 0 (e.unparse mint ++ rest)).result.Yields e rest :=
  (h.readsBack eof mint).whole (Nat.zero_le _) stops

/-- An expression is read up to the token that is expected behind it. -/
lemma closed_yields {place : Expectation} (none : Continuation.ofKind? place.kind = none) {e : Expr}
    (genuine : e.Genuine .assignment) (rest : List Token) :
    (closed eof place (e.unparse mint ++ mint.mark place.kind :: rest)).result.Yields e rest := by
  have stops : Stops 0 (mint.mark place.kind :: rest) :=
    .of_none (by rw [mint.kind_mark]; exact none) 0 rest
  rw [result_closed]
  exact (genuine.read stops).bind ((expect_yields eof (mint.kind_mark _) rest).map _)

/-- Where an expression may be missing, it is read if it is written. -/
lemma optional_yields {place : Expectation} (none : Continuation.ofKind? place.kind = none)
    (not : place.kind ∉ operandKinds) {e : Expr} (genuine : e.Genuine .assignment)
    (rest : List Token) :
    (optional eof place (e.unparse mint ++ mint.mark place.kind :: rest)).result.Yields (some e)
      rest := by
  have stops : Stops 0 (mint.mark place.kind :: rest) :=
    .of_none (by rw [mint.kind_mark]; exact none) 0 rest
  have notEnd : (front eof (e.unparse mint ++ mint.mark place.kind :: rest)).kind ≠ place.kind := by
    obtain ⟨token, us, eq, mem⟩ := genuine.first_mem mint
    rw [eq]
    exact ne_of_mem mem not
  rw [result_optional, if_neg notEnd]
  exact (genuine.read stops).bind ((expect_yields eof (mint.kind_mark _) rest).map _)

/-- An expression that is written between parentheses is read back. -/
lemma enclosed_yields {start stop : Expectation} (opening : start.kind = .leftParen)
    (closing : stop.kind = .rightParen) {e : Expr} (genuine : e.Genuine .assignment)
    (rest : List Token) :
    (enclosed eof start stop
      (mint.mark .leftParen :: (e.unparse mint ++ mint.mark .rightParen :: rest))).result.Yields
      e rest := by
  have none : Continuation.ofKind? stop.kind = none := by rw [closing]; rfl
  have read : (closed eof stop (e.unparse mint ++ mint.mark stop.kind :: rest)).result.Yields e
      rest := closed_yields none genuine rest
  rw [closing] at read
  rw [result_enclosed]
  exact (expect_yields eof ((mint.kind_mark _).trans opening.symm) _).bind read

/-- Names are read with the commas between them. -/
lemma parameters_yields {names : List Token} (all : ∀ name ∈ names, name.kind = .identifier)
    (some : names ≠ []) (count : Nat) {stop : Token} (closing : stop.kind = .rightParen)
    (rest : List Token) :
    (parameters eof count (names.intersperse (mint.mark .comma) ++ stop :: rest)).result.Yields
      names (stop :: rest) := by
  induction names generalizing count with
  | nil => exact absurd rfl some
  | cons name others ih =>
    obtain ⟨isName, more⟩ := List.forall_mem_cons.mp all
    rw [result_parameters]
    refine Parsed.Yields.after ?_ (limit_excess (.inr rfl) count _)
    cases others with
    | nil =>
      have notComma : stop.kind ≠ .comma := by rw [closing]; decide
      rw [List.intersperse_singleton, List.singleton_append]
      refine (expect_yields eof isName _).bind ?_
      dsimp only
      rw [if_neg notComma]
      exact .of_eq rfl
    | cons other others =>
      rw [List.intersperse_cons_cons, List.cons_append]
      refine (expect_yields eof isName _).bind ?_
      rw [List.cons_append]
      dsimp only
      rw [if_pos (mint.kind_mark _)]
      exact (ih more (List.cons_ne_nil other others) (count + 1)).map _

/-- Parameters that are written between parentheses are read back. -/
lemma parameterList_yields {names : List Token} (all : ∀ name ∈ names, name.kind = .identifier)
    (rest : List Token) :
    (parameterList eof
      (names.intersperse (mint.mark .comma) ++ mint.mark .rightParen :: rest)).result.Yields
      names rest := by
  have close : (expect eof .parametersEnd (mint.mark .rightParen :: rest)).result.Yields
      (mint.mark .rightParen) rest := expect_yields eof (mint.kind_mark _) rest
  rw [result_parameterList]
  cases names with
  | nil =>
    rw [List.intersperse_nil, List.nil_append, front_cons, if_pos (mint.kind_mark _)]
    exact close.map _
  | cons name others =>
    have isName : name.kind = .identifier := all name List.mem_cons_self
    have first : front eof ((name :: others).intersperse (mint.mark .comma) ++
        mint.mark .rightParen :: rest) = name := by
      cases others <;> rfl
    have notClosing : name.kind ≠ .rightParen := by rw [isName]; decide
    rw [first, if_neg notClosing]
    refine (parameters_yields all (List.cons_ne_nil _ _) 0 (mint.kind_mark _) rest).bind ?_
    exact close.map _

/-- A function's name and its parameters are read back. -/
lemma signature_yields {name : Token} {names : List Token} (isName : name.kind = .identifier)
    (all : ∀ name ∈ names, name.kind = .identifier) (rest : List Token) :
    (signature eof (name :: mint.mark .leftParen ::
      (names.intersperse (mint.mark .comma) ++ mint.mark .rightParen ::
        mint.mark .leftBrace :: rest))).result.Yields (name, names) rest := by
  rw [result_signature]
  refine (expect_yields eof isName _).bind ?_
  refine (expect_yields eof (mint.kind_mark _) _).bind ?_
  refine (parameterList_yields all _).bind ?_
  exact (expect_yields eof (mint.kind_mark _) rest).map _

end

namespace Stmt

section

variable (eof : Token) (mint : Mint)

/-- A written statement is read unless an `else` follows that belongs to it, and a written
declaration unless any `else` follows. -/
def ReadsBack (s : Stmt) : Role → Prop
  | .statement ending => ∀ rest, (ending = .pending → NoElse rest) →
    (statement eof (s.unparse mint ++ rest)).result.Yields s rest
  | .declaration => ∀ rest, NoElse rest →
    (declaration eof (s.unparse mint ++ rest)).result.Yields s rest

end

/-- The kinds of tokens with which trees that stand somewhere begin. -/
def firstKinds : Role → List Kind
  | .statement _ => statementKinds
  | .declaration => declarationKinds

/-- A written tree begins as the grammar says. -/
lemma Genuine.first_mem {s : Stmt} {role : Role} (h : s.Genuine role) (mint : Mint) :
    ∃ token us, s.unparse mint = token :: us ∧ token.kind ∈ firstKinds role := by
  have mark : ∀ {kind : Kind} {kinds : List Kind}, kind ∈ kinds →
      (mint.mark kind).kind ∈ kinds := by
    intro kind kinds mem
    rw [mint.kind_mark]
    exact mem
  induction h with
  | @var name initializer _ _ =>
    have mem : (mint.mark .kwVar).kind ∈ declarationKinds := mark (by decide)
    cases initializer with
    | none => exact ⟨_, _, rfl, mem⟩
    | some e => exact ⟨_, _, rfl, mem⟩
  | function =>
    have mem : (mint.mark .kwFun).kind ∈ declarationKinds := mark (by decide)
    exact ⟨_, _, rfl, mem⟩
  | among _ ih =>
    obtain ⟨token, us, eq, mem⟩ := ih
    exact ⟨token, us, eq, List.mem_append_left _ mem⟩
  | expression genuine =>
    obtain ⟨token, us, eq, mem⟩ := genuine.first_mem mint
    exact ⟨token, _, by rw [unparse, eq, List.cons_append], List.mem_append_left _ mem⟩
  | print =>
    have mem : (mint.mark .kwPrint).kind ∈ statementKinds := mark (by decide)
    exact ⟨_, _, rfl, mem⟩
  | block =>
    have mem : (mint.mark .leftBrace).kind ∈ statementKinds := mark (by decide)
    exact ⟨_, _, rfl, mem⟩
  | ifThen | ifElse =>
    have mem : (mint.mark .kwIf).kind ∈ statementKinds := mark (by decide)
    exact ⟨_, _, rfl, mem⟩
  | loop =>
    have mem : (mint.mark .kwWhile).kind ∈ statementKinds := mark (by decide)
    exact ⟨_, _, rfl, mem⟩
  | @ret keyword value kind _ =>
    have mem : keyword.kind ∈ statementKinds := by
      rw [kind]
      decide
    cases value with
    | none => exact ⟨_, _, rfl, mem⟩
    | some e => exact ⟨_, _, rfl, mem⟩

/-- No declaration is written with an `else` in front. -/
lemma Genuine.noElse {s : Stmt} (h : s.Genuine .declaration) (mint : Mint) (rest : List Token) :
    NoElse (s.unparse mint ++ rest) := by
  obtain ⟨token, us, eq, mem⟩ := h.first_mem mint
  rw [eq]
  exact ne_of_mem mem (by decide)

section

variable {eof : Token} {mint : Mint} {s t : Stmt} {e : Expr} {ending : Ending}

/-- Written declarations do not begin with an `else`, and neither does what follows them. -/
lemma noElse_unparseAll (mint : Mint) {ss : List Stmt}
    (genuine : ∀ s ∈ ss, s.Genuine .declaration) {rest : List Token} (noElse : NoElse rest) :
    NoElse (unparseAll mint ss ++ rest) := by
  cases ss with
  | nil => exact noElse
  | cons s others =>
    rw [unparseAll, List.append_assoc]
    exact (genuine s List.mem_cons_self).noElse mint _

/-- What is read as a declaration from a written one is kept by recovery. -/
lemma recovered_yields {p : Parsed Stmt} {rest : List Token} (h : p.Yields s rest) :
    ∃ errors, recovered p = (some s, rest, errors) ∧ ∀ e ∈ errors, e.Excess := by
  obtain ⟨errors, rfl, excess⟩ := h
  exact ⟨errors, rfl, excess⟩

/-- Written declarations are read up to the brace behind them. -/
lemma block_yields {ss : List Stmt} (genuine : ∀ s ∈ ss, s.Genuine .declaration)
    (all : ∀ s ∈ ss, ReadsBack eof mint s .declaration) (rest : List Token) :
    (Parse.block eof (unparseAll mint ss ++ mint.mark .rightBrace :: rest)).result.Yields ss
      rest := by
  induction ss with
  | nil =>
    rw [unparseAll, List.nil_append, result_block_cons, if_pos (mint.kind_mark _)]
    exact .of_eq rfl
  | cons s others ih =>
    obtain ⟨first, more⟩ := List.forall_mem_cons.mp all
    obtain ⟨firstGenuine, moreGenuine⟩ := List.forall_mem_cons.mp genuine
    have noElse : NoElse (mint.mark .rightBrace :: rest) := by
      change _ ≠ _
      rw [mint.kind_mark]
      decide
    have read := first _ (noElse_unparseAll mint moreGenuine noElse)
    -- A declaration begins with no brace, so the block goes on.
    obtain ⟨token, us, eq, mem⟩ := firstGenuine.first_mem mint
    rw [eq, List.cons_append] at read
    obtain ⟨errors, kept, excess⟩ := recovered_yields read
    rw [unparseAll, eq, List.append_assoc, List.cons_append, result_block_cons,
      if_neg (ne_of_mem mem (by decide)), kept]
    exact ((ih moreGenuine more).map _).after excess

namespace ReadsBack

/-- A variable declaration is read back. -/
lemma var {name : Token} {initializer : Option Expr} (isName : name.kind = .identifier)
    (genuine : ∀ e ∈ initializer, e.Genuine .assignment) :
    ReadsBack eof mint (.var name initializer) .declaration := by
  intro rest _
  have notFun : (mint.mark .kwVar).kind ≠ .kwFun := by rw [mint.kind_mark]; decide
  cases initializer with
  | none =>
    have notEqual : (mint.mark .semicolon).kind ≠ .equal := by rw [mint.kind_mark]; decide
    rw [unparse, List.cons_append, List.cons_append, List.singleton_append,
      result_declaration_cons, if_neg notFun, if_pos (mint.kind_mark _),
      result_variableDeclaration]
    refine (expect_yields eof isName _).bind ?_
    dsimp only
    rw [if_neg notEqual]
    exact (expect_yields eof (mint.kind_mark _) rest).map _
  | some e =>
    rw [unparse, List.cons_append, List.cons_append, List.cons_append, List.append_assoc,
      List.singleton_append, result_declaration_cons, if_neg notFun, if_pos (mint.kind_mark _),
      result_variableDeclaration]
    refine (expect_yields eof isName _).bind ?_
    dsimp only
    rw [if_pos (mint.kind_mark _)]
    exact (closed_yields rfl (genuine e rfl) rest).map _

/-- A function is read back if the declarations of its body are. -/
lemma function {name : Token} {names : List Token} {body : List Stmt}
    (isName : name.kind = .identifier) (areNames : ∀ p ∈ names, p.kind = .identifier)
    (genuine : ∀ s ∈ body, s.Genuine .declaration)
    (all : ∀ s ∈ body, ReadsBack eof mint s .declaration) :
    ReadsBack eof mint (.function name names body) .declaration := by
  intro rest _
  have flat : (Stmt.function name names body).unparse mint ++ rest =
      mint.mark .kwFun :: name :: mint.mark .leftParen ::
        (names.intersperse (mint.mark .comma) ++ mint.mark .rightParen ::
          mint.mark .leftBrace :: (unparseAll mint body ++ mint.mark .rightBrace :: rest)) := by
    simp only [unparse, List.cons_append, List.append_assoc, List.nil_append]
  rw [flat, result_declaration_cons, if_pos (mint.kind_mark _), result_function]
  exact (signature_yields isName areNames _).bind ((block_yields genuine all rest).map _)

/-- A statement is read back as a declaration. -/
lemma among (genuine : s.Genuine (.statement ending))
    (h : ReadsBack eof mint s (.statement ending)) : ReadsBack eof mint s .declaration := by
  intro rest noElse
  have read := h rest fun _ => noElse
  obtain ⟨token, us, eq, mem⟩ := genuine.first_mem mint
  have notFun : token.kind ≠ .kwFun := ne_of_mem mem (by change _ ∉ statementKinds; decide)
  have notVar : token.kind ≠ .kwVar := ne_of_mem mem (by change _ ∉ statementKinds; decide)
  rw [eq, List.cons_append] at read ⊢
  rw [result_declaration_cons, if_neg notFun, if_neg notVar]
  exact read

/-- An expression with a semicolon is read back. -/
lemma expression (genuine : e.Genuine .assignment) :
    ReadsBack eof mint (.expression e) (.statement .closed) := by
  intro rest _
  have read : (closed eof .expressionEnd
      (e.unparse mint ++ mint.mark .semicolon :: rest)).result.Yields e rest :=
    closed_yields rfl genuine rest
  obtain ⟨token, us, eq, mem⟩ := genuine.first_mem mint
  rw [eq, List.cons_append] at read
  rw [unparse, eq, List.append_assoc, List.singleton_append, List.cons_append,
    result_statement_operand _ mem]
  exact read.map _

/-- A `print` statement is read back. -/
lemma print (genuine : e.Genuine .assignment) :
    ReadsBack eof mint (.print e) (.statement .closed) := by
  intro rest _
  rw [unparse, List.cons_append, List.append_assoc, List.singleton_append, result_statement_cons,
    mint.kind_mark]
  exact (closed_yields rfl genuine rest).map _

/-- A block is read back if its declarations are. -/
lemma block {body : List Stmt} (genuine : ∀ s ∈ body, s.Genuine .declaration)
    (all : ∀ s ∈ body, ReadsBack eof mint s .declaration) :
    ReadsBack eof mint (.block body) (.statement .closed) := by
  intro rest _
  rw [unparse, List.cons_append, List.append_assoc, List.singleton_append, result_statement_cons,
    mint.kind_mark]
  exact (block_yields genuine all rest).map _

/-- An `if` without an `else` is read back if its branch is. -/
lemma ifThen (genuine : e.Genuine .assignment) (branch : ReadsBack eof mint s (.statement ending)) :
    ReadsBack eof mint (.ifThen e s) (.statement .pending) := by
  intro rest noElse
  rw [unparse, List.cons_append, List.cons_append, List.append_assoc, List.cons_append,
    result_statement_cons, mint.kind_mark]
  refine (enclosed_yields rfl rfl genuine _).bind ?_
  rw [result_branches]
  refine (branch rest fun _ => noElse rfl).bind ?_
  -- No `else` follows, so that the branches end here.
  cases rest with
  | nil => exact .of_eq rfl
  | cons token others =>
    dsimp only
    rw [if_neg (noElse rfl)]
    exact .of_eq rfl

/-- An `if` with an `else` is read back if its branches are. -/
lemma ifElse (genuine : e.Genuine .assignment)
    (thenBranch : ReadsBack eof mint s (.statement .closed))
    (elseBranch : ReadsBack eof mint t (.statement ending)) :
    ReadsBack eof mint (.ifElse e s t) (.statement ending) := by
  intro rest noElse
  rw [unparse, List.cons_append, List.cons_append, List.append_assoc, List.cons_append,
    List.append_assoc, List.cons_append, result_statement_cons, mint.kind_mark]
  refine (enclosed_yields rfl rfl genuine _).bind ?_
  rw [result_branches]
  -- A closed first branch takes no `else`, so the one that follows is left for this `if`.
  refine (thenBranch _ fun eq => by cases eq).bind ?_
  dsimp only
  rw [if_pos (mint.kind_mark _)]
  exact (elseBranch rest noElse).map _

/-- A `while` loop is read back if its body is. -/
lemma loop (genuine : e.Genuine .assignment) (body : ReadsBack eof mint s (.statement ending)) :
    ReadsBack eof mint (.loop e none s) (.statement ending) := by
  intro rest noElse
  rw [unparse, List.cons_append, List.cons_append, List.append_assoc, List.cons_append,
    result_statement_cons, mint.kind_mark]
  refine (enclosed_yields rfl rfl genuine _).bind ?_
  exact (body rest noElse).map _

/-- A `return` statement is read back. -/
lemma ret {keyword : Token} {value : Option Expr} (kind : keyword.kind = .kwReturn)
    (genuine : ∀ e ∈ value, e.Genuine .assignment) :
    ReadsBack eof mint (.ret keyword value) (.statement .closed) := by
  intro rest _
  cases value with
  | none =>
    have isEnd : (mint.mark .semicolon).kind = Expectation.returnEnd.kind := mint.kind_mark _
    rw [unparse, List.cons_append, List.singleton_append, result_statement_cons, kind]
    dsimp only
    rw [result_optional, front_cons, if_pos isEnd]
    exact ((expect_yields eof isEnd rest).map _).map _
  | some e =>
    rw [unparse, List.cons_append, List.append_assoc, List.singleton_append,
      result_statement_cons, kind]
    exact (optional_yields rfl (by decide) (genuine e rfl) rest).map _

end ReadsBack

end

/-- What the grammar builds as a statement or declaration is read back. -/
lemma Genuine.readsBack {s : Stmt} {role : Role} (h : s.Genuine role) (eof : Token) (mint : Mint) :
    ReadsBack eof mint s role := by
  induction h with
  | var isName genuine => exact .var isName genuine
  | function isName areNames genuine all => exact .function isName areNames genuine all
  | among genuine inner => exact .among genuine inner
  | expression genuine => exact .expression genuine
  | print genuine => exact .print genuine
  | block genuine all => exact .block genuine all
  | ifThen genuine _ branch => exact .ifThen genuine branch
  | ifElse genuine _ _ thenBranch elseBranch => exact .ifElse genuine thenBranch elseBranch
  | loop genuine _ body => exact .loop genuine body
  | ret kind genuine => exact .ret kind genuine

/-- Written declarations are read as a program. -/
lemma declarations_yields (eof : Token) (mint : Mint) {ss : List Stmt}
    (genuine : ∀ s ∈ ss, s.Genuine .declaration) :
    ∃ errors, declarations eof (unparseAll mint ss) = (ss, errors) ∧ ∀ e ∈ errors, e.Excess := by
  induction ss with
  | nil => exact ⟨[], by rw [unparseAll, declarations_nil], List.forall_mem_nil _⟩
  | cons s others ih =>
    obtain ⟨first, more⟩ := List.forall_mem_cons.mp genuine
    obtain ⟨later, found, excess⟩ := ih more
    have noElse : NoElse (unparseAll mint others) := by
      rw [← List.append_nil (unparseAll mint others)]
      exact noElse_unparseAll mint more trivial
    have read := first.readsBack eof mint (unparseAll mint others) noElse
    obtain ⟨token, us, eq, _⟩ := first.first_mem mint
    rw [eq, List.cons_append] at read
    obtain ⟨earlier, kept, excess'⟩ := recovered_yields read
    refine ⟨earlier ++ later, ?_, List.forall_mem_append.mpr ⟨excess', excess⟩⟩
    rw [unparseAll, eq, List.cons_append, declarations_cons, kept]
    dsimp only
    rw [found]
    rfl

end Stmt

section

variable (mint : Mint)

/-- A genuine program is read back from the tokens with which it is written. -/
lemma Program.Genuine.parse_unparse {program : Program} (h : program.Genuine) :
    ∃ errors, Program.parse (program.unparse mint) = (program, errors) ∧
      ∀ e ∈ errors, e.Excess := by
  have inner : ∀ t ∈ program.unparse mint, Inner t :=
    Stmt.inner_unparseAll mint fun s mem => (h s mem).inner mint
  have whole : Parse.beforeEnd (program.unparse mint) = program.unparse mint :=
    List.takeWhile_eq_self_iff.mpr fun t mem => decide_eq_true (inner t mem)
  obtain ⟨errors, read, excess⟩ :=
    Stmt.declarations_yields (Parse.endOf (program.unparse mint)) mint h
  refine ⟨errors, ?_, excess⟩
  rw [Program.parse, Program.parseLoops, whole, Program.unparse] at *
  rw [read]
  dsimp only
  rw [h.desugar]

end

/-- The parser makes genuine programs only: whatever tokens it has read and whatever it has objected
to, its program is built as the grammar builds programs, and is read back from the tokens with which
it is written, however those that are not in the tree are made up. -/
theorem Program.parse_unparse_parse (mint : Mint) (tokens : List Token) :
    let program := (Program.parse tokens).1
    program.Genuine ∧
      ∃ errors, Program.parse (program.unparse mint) = (program, errors) ∧
        ∀ e ∈ errors, e.cause = .tooManyArguments ∨ e.cause = .tooManyParameters :=
  have genuine := Program.parse_genuine tokens
  ⟨genuine, genuine.parse_unparse mint⟩

end Lox
