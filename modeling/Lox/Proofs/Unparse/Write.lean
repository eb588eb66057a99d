import Lox.Proofs.Grammar.Levels
import Lox.Proofs.Syntax.Loops

/-!
# Writing programs as tokens

A tree is written as the tokens with which the grammar spells it. Those that the tree keeps are
written as they are; keywords, punctuation and literals are made up. No parentheses are added, so
only some trees can be read back: the genuine ones, which are built as the grammar builds trees.
Genuine trees have no loops with steps, and no limit to the number of arguments and parameters.
-/

namespace Lox

/-- A way to make tokens up. Besides their kinds and literals they may have anything. -/
structure Mint where
  token : Kind → Option Literal → Token
  kind_token : ∀ kind literal, (token kind literal).kind = kind
  literal_token : ∀ kind literal, (token kind literal).literal = literal

namespace Mint

variable (mint : Mint)

/-- A token without a literal. -/
def mark (kind : Kind) : Token :=
  mint.token kind none

/-- The token of a literal. -/
def atom : Atom → Token
  | .number x => mint.token .number (some (.number x))
  | .string s => mint.token .string (some (.string s))
  | .boolean true => mint.mark .kwTrue
  | .boolean false => mint.mark .kwFalse
  | .nil => mint.mark .kwNil

/-- A mark that is minted is of its kind. -/
@[simp]
theorem kind_mark (kind : Kind) : (mint.mark kind).kind = kind :=
  mint.kind_token kind none

/-- The token of a literal stands for it. -/
theorem literal_atom (a : Atom) : Grammar.Literal (mint.atom a) a := by
  cases a with
  | number x => exact .number (mint.kind_token _ _) (mint.literal_token _ _)
  | boolean b =>
    cases b with
    | true => exact .true (mint.kind_mark _)
    | false => exact .false (mint.kind_mark _)
  | nil => exact .nil (mint.kind_mark _)
  | string s => exact .string (mint.kind_token _ _) (mint.literal_token _ _)

end Mint

section

variable (mint : Mint)

mutual

/-- The tokens with which an expression is written. -/
def Expr.unparse : Expr → List Token
  | .literal atom => [mint.atom atom]
  | .group inner => mint.mark .leftParen :: (inner.unparse ++ [mint.mark .rightParen])
  | .ident name => [name]
  | .assign name value => name :: mint.mark .equal :: value.unparse
  | .unary _ token operand => token :: operand.unparse
  | .binary _ token left right => left.unparse ++ token :: right.unparse
  | .logical _ token left right => left.unparse ++ token :: right.unparse
  | .call callee paren arguments =>
    callee.unparse ++ mint.mark .leftParen :: (Expr.unparseAll arguments ++ [paren])

/-- The tokens of expressions with commas between them. -/
def Expr.unparseAll : List Expr → List Token
  | [] => []
  | [e] => e.unparse
  | e :: f :: rest => e.unparse ++ mint.mark .comma :: Expr.unparseAll (f :: rest)

end

mutual

/-- The tokens with which a statement is written. A loop with a step is written as the one to which
it is desugared. -/
def Stmt.unparse : Stmt → List Token
  | .var name none => [mint.mark .kwVar, name, mint.mark .semicolon]
  | .var name (some e) =>
    mint.mark .kwVar :: name :: mint.mark .equal :: (e.unparse mint ++ [mint.mark .semicolon])
  | .function name parameters body =>
    mint.mark .kwFun :: name :: mint.mark .leftParen ::
      (parameters.intersperse (mint.mark .comma) ++ mint.mark .rightParen ::
        mint.mark .leftBrace :: (Stmt.unparseAll body ++ [mint.mark .rightBrace]))
  | .expression e => e.unparse mint ++ [mint.mark .semicolon]
  | .print e => mint.mark .kwPrint :: (e.unparse mint ++ [mint.mark .semicolon])
  | .block body => mint.mark .leftBrace :: (Stmt.unparseAll body ++ [mint.mark .rightBrace])
  | .ifThen condition thenBranch =>
    mint.mark .kwIf :: mint.mark .leftParen ::
      (condition.unparse mint ++ mint.mark .rightParen :: thenBranch.unparse)
  | .ifElse condition thenBranch elseBranch =>
    mint.mark .kwIf :: mint.mark .leftParen ::
      (condition.unparse mint ++ mint.mark .rightParen ::
        (thenBranch.unparse ++ mint.mark .kwElse :: elseBranch.unparse))
  | .loop condition none body =>
    mint.mark .kwWhile :: mint.mark .leftParen ::
      (condition.unparse mint ++ mint.mark .rightParen :: body.unparse)
  | .loop condition (some step) body =>
    mint.mark .kwWhile :: mint.mark .leftParen ::
      (condition.unparse mint ++ mint.mark .rightParen :: mint.mark .leftBrace ::
        (body.unparse ++ (step.unparse mint ++ [mint.mark .semicolon, mint.mark .rightBrace])))
  | .ret keyword none => [keyword, mint.mark .semicolon]
  | .ret keyword (some e) => keyword :: (e.unparse mint ++ [mint.mark .semicolon])

/-- The tokens of statements one behind the other. -/
def Stmt.unparseAll : List Stmt → List Token
  | [] => []
  | s :: rest => s.unparse ++ Stmt.unparseAll rest

end

/-- The tokens with which a program is written. -/
def Program.unparse (program : Program) : List Token :=
  Stmt.unparseAll mint program

end

/-- The trees of the expressions of each level. -/
inductive Expr.Genuine : Expr → Grammar.Level → Prop where
  | literal (atom : Atom) :
    Genuine (.literal atom) .primary
  | ident {name : Token} :
    name.kind = .identifier →
    Genuine (.ident name) .primary
  | group {e : Expr} :
    Genuine e .assignment →
    Genuine (.group e) .primary
  | call {callee : Expr} {paren : Token} {arguments : List Expr} :
    Genuine callee .call → paren.kind = .rightParen → (∀ e ∈ arguments, Genuine e .assignment) →
    Genuine (.call callee paren arguments) .call
  | unary {token : Token} {op : PrefixOp} {e : Expr} :
    Grammar.Unary token.kind op → Genuine e .unary →
    Genuine (.unary op token e) .unary
  | binary {level : Grammar.Level} {token : Token} {op : BinaryOp} {e f : Expr} :
    Genuine e level → Grammar.Binary level token.kind op → Genuine f level.tighter →
    Genuine (.binary op token e f) level
  | logical {level : Grammar.Level} {token : Token} {op : LogicalOp} {e f : Expr} :
    Genuine e level → Grammar.Logical level token.kind op → Genuine f level.tighter →
    Genuine (.logical op token e f) level
  | assign {name : Token} {e : Expr} :
    name.kind = .identifier → Genuine e .assignment →
    Genuine (.assign name e) .assignment
  | tighter {level : Grammar.Level} {e : Expr} :
    Genuine e level.tighter →
    Genuine e level

/-- Where a tree can stand: among declarations, or where the grammar asks for a statement that ends
in some way. -/
inductive Role where
  | declaration
  | statement (ending : Grammar.Ending)

/-- The trees of declarations and statements. Only a closed statement stands in front of an
`else`. -/
inductive Stmt.Genuine : Stmt → Role → Prop where
  | var {name : Token} {initializer : Option Expr} :
    name.kind = .identifier → (∀ e ∈ initializer, e.Genuine .assignment) →
    Genuine (.var name initializer) .declaration
  | function {name : Token} {parameters : List Token} {body : List Stmt} :
    name.kind = .identifier → (∀ p ∈ parameters, p.kind = .identifier) →
    (∀ s ∈ body, Genuine s .declaration) →
    Genuine (.function name parameters body) .declaration
  | among {s : Stmt} {ending : Grammar.Ending} :
    Genuine s (.statement ending) →
    Genuine s .declaration
  | expression {e : Expr} :
    e.Genuine .assignment →
    Genuine (.expression e) (.statement .closed)
  | print {e : Expr} :
    e.Genuine .assignment →
    Genuine (.print e) (.statement .closed)
  | block {body : List Stmt} :
    (∀ s ∈ body, Genuine s .declaration) →
    Genuine (.block body) (.statement .closed)
  | ifThen {condition : Expr} {s : Stmt} {ending : Grammar.Ending} :
    condition.Genuine .assignment → Genuine s (.statement ending) →
    Genuine (.ifThen condition s) (.statement .pending)
  | ifElse {condition : Expr} {s t : Stmt} {ending : Grammar.Ending} :
    condition.Genuine .assignment → Genuine s (.statement .closed) →
    Genuine t (.statement ending) →
    Genuine (.ifElse condition s t) (.statement ending)
  | loop {condition : Expr} {s : Stmt} {ending : Grammar.Ending} :
    condition.Genuine .assignment → Genuine s (.statement ending) →
    Genuine (.loop condition none s) (.statement ending)
  | ret {keyword : Token} {value : Option Expr} :
    keyword.kind = .kwReturn → (∀ e ∈ value, e.Genuine .assignment) →
    Genuine (.ret keyword value) (.statement .closed)

/-- The trees of programs. -/
def Program.Genuine (program : Program) : Prop :=
  ∀ s ∈ program, s.Genuine .declaration

/-- A genuine expression is one of every looser level. -/
lemma Expr.Genuine.loosen {level level' : Grammar.Level} {e : Expr} (h : e.Genuine level)
    (le : level'.power ≤ level.power) : e.Genuine level' :=
  Grammar.Level.takeOver e.Genuine (fun _ => .tighter) h le

/-- Whole expressions are those of the loosest level. -/
lemma Expr.Genuine.whole {level : Grammar.Level} {e : Expr} (h : e.Genuine level) :
    e.Genuine .assignment :=
  h.loosen (by cases level <;> decide)

/-- A name is genuine if its token is one. -/
lemma Expr.Genuine.kind_ident {level : Grammar.Level} {name : Token}
    (h : (Expr.ident name).Genuine level) : name.kind = .identifier := by
  generalize same : Expr.ident name = e at h
  induction h with
  | ident isName =>
    cases same
    exact isName
  | tighter _ ih => exact ih same
  | _ => exact nomatch same

/-- Statements stay as they are if each of them does when it is desugared. -/
lemma Stmt.desugarAll_eq_self {ss : List Stmt} (h : ∀ s ∈ ss, s.desugar = s) :
    desugarAll ss = ss := by
  rw [desugarAll_eq_map, List.map_congr_left h, List.map_id']

/-- There is nothing to be desugared in a genuine tree. -/
lemma Stmt.Genuine.desugar {s : Stmt} {role : Role} (h : s.Genuine role) : s.desugar = s := by
  induction h with
  | var | expression | print | ret => rfl
  | among _ ih => exact ih
  | function _ _ _ ih => rw [Stmt.desugar, desugarAll_eq_self ih]
  | block _ ih => rw [Stmt.desugar, desugarAll_eq_self ih]
  | ifThen _ _ ih => rw [Stmt.desugar, ih]
  | ifElse _ _ _ first second => rw [Stmt.desugar, first, second]
  | loop _ _ ih => rw [Stmt.desugar, ih]

/-- Nothing is to be desugared in a genuine program. -/
lemma Program.Genuine.desugar {program : Program} (h : program.Genuine) :
    program.desugar = program :=
  Stmt.desugarAll_eq_self fun s mem => (h s mem).desugar

section

/-- A token that does not end a program. -/
abbrev Inner (token : Token) : Prop :=
  token.kind ≠ .eof

/-- A token of another kind is no end mark. -/
lemma Inner.of_eq {token : Token} {kind : Kind} (eq : token.kind = kind) (ne : kind ≠ .eof) :
    Inner token := by
  rw [Inner, eq]
  exact ne

variable (mint : Mint)

/-- A mark that is minted is no end mark, unless it is to be one. -/
lemma Mint.inner_mark {kind : Kind} (ne : kind ≠ .eof) : Inner (mint.mark kind) :=
  .of_eq (mint.kind_mark kind) ne

/-- A literal that is minted is no end mark. -/
lemma Mint.inner_atom (atom : Atom) : Inner (mint.atom atom) := by
  cases mint.literal_atom atom with
  | number kind _ | string kind _ | true kind | false kind | nil kind =>
    exact .of_eq kind (by decide)

/-- There is no end mark in expressions if there is none in each of them. -/
lemma Expr.inner_unparseAll {es : List Expr} (all : ∀ e ∈ es, ∀ t ∈ e.unparse mint, Inner t) :
    ∀ t ∈ unparseAll mint es, Inner t := by
  induction es with
  | nil => exact List.forall_mem_nil _
  | cons e others ih =>
    obtain ⟨first, more⟩ := List.forall_mem_cons.mp all
    cases others with
    | nil => exact first
    | cons f others =>
      rw [unparseAll, List.forall_mem_append, List.forall_mem_cons]
      exact ⟨first, mint.inner_mark (by decide), ih more⟩

/-- No end mark is written in an expression. -/
lemma Expr.Genuine.inner {level : Grammar.Level} {e : Expr} (h : e.Genuine level) :
    ∀ t ∈ e.unparse mint, Inner t := by
  induction h with
  | literal atom => exact List.forall_mem_singleton.mpr (mint.inner_atom atom)
  | ident isName => exact List.forall_mem_singleton.mpr (.of_eq isName (by decide))
  | group _ inner =>
    rw [unparse, List.forall_mem_cons, List.forall_mem_append, List.forall_mem_singleton]
    exact ⟨mint.inner_mark (by decide), inner, mint.inner_mark (by decide)⟩
  | call _ closing _ callee all =>
    rw [unparse, List.forall_mem_append, List.forall_mem_cons, List.forall_mem_append,
      List.forall_mem_singleton]
    exact ⟨callee, mint.inner_mark (by decide), inner_unparseAll mint all,
      .of_eq closing (by decide)⟩
  | unary isOp _ inner =>
    rw [unparse, List.forall_mem_cons]
    refine ⟨?_, inner⟩
    generalize same : Token.kind _ = kind at isOp
    cases isOp <;> exact .of_eq same (by decide)
  | binary _ isOp _ left right =>
    rw [unparse, List.forall_mem_append, List.forall_mem_cons]
    refine ⟨left, ?_, right⟩
    clear left right
    generalize same : Token.kind _ = kind at isOp
    cases isOp <;> exact .of_eq same (by decide)
  | logical _ isOp _ left right =>
    rw [unparse, List.forall_mem_append, List.forall_mem_cons]
    refine ⟨left, ?_, right⟩
    clear left right
    generalize same : Token.kind _ = kind at isOp
    cases isOp <;> exact .of_eq same (by decide)
  | assign isName _ inner =>
    rw [unparse, List.forall_mem_cons, List.forall_mem_cons]
    exact ⟨.of_eq isName (by decide), mint.inner_mark (by decide), inner⟩
  | tighter _ ih => exact ih

/-- There is no end mark in names with commas between them if there is none in the names. -/
lemma inner_intersperse {names : List Token} (all : ∀ name ∈ names, Inner name) :
    ∀ t ∈ names.intersperse (mint.mark .comma), Inner t := by
  induction names with
  | nil => exact List.forall_mem_nil _
  | cons name others ih =>
    obtain ⟨first, more⟩ := List.forall_mem_cons.mp all
    cases others with
    | nil => exact all
    | cons other others =>
      rw [List.intersperse_cons_cons, List.forall_mem_cons, List.forall_mem_cons]
      exact ⟨first, mint.inner_mark (by decide), ih more⟩

/-- There is no end mark in statements if there is none in each of them. -/
lemma Stmt.inner_unparseAll {ss : List Stmt} (all : ∀ s ∈ ss, ∀ t ∈ s.unparse mint, Inner t) :
    ∀ t ∈ unparseAll mint ss, Inner t := by
  induction ss with
  | nil => exact List.forall_mem_nil _
  | cons s others ih =>
    obtain ⟨first, more⟩ := List.forall_mem_cons.mp all
    rw [unparseAll, List.forall_mem_append]
    exact ⟨first, ih more⟩

/-- No end mark is written in a statement or declaration. -/
lemma Stmt.Genuine.inner {s : Stmt} {role : Role} (h : s.Genuine role) :
    ∀ t ∈ s.unparse mint, Inner t := by
  have mark : ∀ {kind : Kind}, kind ≠ .eof → Inner (mint.mark kind) := mint.inner_mark
  have condition : ∀ {e : Expr}, e.Genuine .assignment → ∀ t ∈ e.unparse mint, Inner t :=
    fun genuine => genuine.inner mint
  induction h with
  | @var name initializer isName genuine =>
    have isName := Inner.of_eq isName (by decide)
    cases initializer with
    | none =>
      simp only [unparse, List.forall_mem_cons]
      exact ⟨mark (by decide), isName, mark (by decide), List.forall_mem_nil _⟩
    | some e =>
      simp only [unparse, List.forall_mem_cons, List.forall_mem_append]
      exact ⟨mark (by decide), isName, mark (by decide), condition (genuine e rfl),
        mark (by decide), List.forall_mem_nil _⟩
  | function isName areNames _ all =>
    have names := inner_intersperse mint fun p mem => .of_eq (areNames p mem) (by decide)
    simp only [unparse, List.forall_mem_cons, List.forall_mem_append]
    exact ⟨mark (by decide), .of_eq isName (by decide), mark (by decide), names,
      mark (by decide), mark (by decide), inner_unparseAll mint all, mark (by decide),
      List.forall_mem_nil _⟩
  | among _ ih => exact ih
  | expression genuine =>
    rw [unparse, List.forall_mem_append, List.forall_mem_singleton]
    exact ⟨condition genuine, mark (by decide)⟩
  | print genuine =>
    rw [unparse, List.forall_mem_cons, List.forall_mem_append, List.forall_mem_singleton]
    exact ⟨mark (by decide), condition genuine, mark (by decide)⟩
  | block _ all =>
    rw [unparse, List.forall_mem_cons, List.forall_mem_append, List.forall_mem_singleton]
    exact ⟨mark (by decide), inner_unparseAll mint all, mark (by decide)⟩
  | ifThen genuine _ branch | loop genuine _ branch =>
    simp only [unparse, List.forall_mem_cons, List.forall_mem_append]
    exact ⟨mark (by decide), mark (by decide), condition genuine, mark (by decide), branch⟩
  | ifElse genuine _ _ thenBranch elseBranch =>
    simp only [unparse, List.forall_mem_cons, List.forall_mem_append]
    exact ⟨mark (by decide), mark (by decide), condition genuine, mark (by decide), thenBranch,
      mark (by decide), elseBranch⟩
  | @ret keyword value kind genuine =>
    have isKeyword := Inner.of_eq kind (by decide)
    cases value with
    | none => 
      simp only [unparse, List.forall_mem_cons]
      exact ⟨isKeyword, mark (by decide), List.forall_mem_nil _⟩
    | some e =>
      simp only [unparse, List.forall_mem_cons, List.forall_mem_append]
      exact ⟨isKeyword, condition (genuine e rfl), mark (by decide), List.forall_mem_nil _⟩

end

end Lox
