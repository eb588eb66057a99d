import Lox.Proofs.Syntax.Loops
import Lox.Proofs.Syntax.Rules

/-!
# The shape of parsed statements

The grammar allows declarations in programs, blocks and function bodies only, and the parser keeps
to that: whatever the tokens are, the branches of an `if` and the bodies of loops declare nothing in
the scope around them.
-/

namespace Lox

/-- The statement declares nothing in the scope in which it is executed. -/
def Stmt.Plain : Stmt → Prop
  | .var _ _ | .function _ _ _ => False
  | _ => True

/-- Branches and the bodies of loops declare nothing, here and in every part of the statement. -/
inductive Stmt.Proper : Stmt → Prop where
  | var (name : Token) (initializer : Option Expr) :
    Proper (.var name initializer)
  | function (name : Token) (parameters : List Token) {body : List Stmt} :
    (∀ s ∈ body, Proper s) →
    Proper (.function name parameters body)
  | expression (e : Expr) :
    Proper (.expression e)
  | print (e : Expr) :
    Proper (.print e)
  | block {body : List Stmt} :
    (∀ s ∈ body, Proper s) →
    Proper (.block body)
  | ifThen (condition : Expr) {s : Stmt} :
    Proper s → s.Plain →
    Proper (.ifThen condition s)
  | ifElse (condition : Expr) {s t : Stmt} :
    Proper s → s.Plain → Proper t → t.Plain →
    Proper (.ifElse condition s t)
  | loop (condition : Expr) (step : Option Expr) {s : Stmt} :
    Proper s → s.Plain →
    Proper (.loop condition step s)
  | ret (keyword : Token) (value : Option Expr) :
    Proper (.ret keyword value)

namespace Stmt

/-- The name that a declaration declares. -/
def declared? : Stmt → Option Token
  | var name _ | function name _ _ => some name
  | _ => none

/-- A statement declares nothing if it has no name to declare. -/
lemma plain_iff {s : Stmt} : s.Plain ↔ s.declared? = none := by
  cases s with
  | var name initializer => exact ⟨False.elim, nofun⟩
  | function name parameters body => exact ⟨False.elim, nofun⟩
  | _ => exact iff_of_true trivial rfl

/-- A desugared statement declares nothing if the statement does not. -/
lemma Plain.desugar {s : Stmt} (h : s.Plain) : s.desugar.Plain := by
  cases s with
  | var name initializer => exact h
  | function name parameters body => exact h
  | loop condition step body =>
    cases step with
    | none => trivial
    | some step => trivial
  | _ => trivial

/-- Desugaring makes no declaration a branch or the body of a loop. -/
lemma Proper.desugar {s : Stmt} (h : s.Proper) : s.desugar.Proper := by
  have all {body : List Stmt} (ih : ∀ s ∈ body, s.desugar.Proper) :
      ∀ s ∈ desugarAll body, s.Proper := by
    rw [desugarAll_eq_map]
    exact List.forall_mem_map.mpr ih
  induction h with
  | var name initializer => exact .var name initializer
  | function name parameters _ ih => exact .function name parameters (all ih)
  | expression e => exact .expression e
  | print e => exact .print e
  | block _ ih => exact .block (all ih)
  | ifThen condition _ plain ih => exact .ifThen condition ih plain.desugar
  | ifElse condition _ plain _ plain' ih ih' =>
    exact .ifElse condition ih plain.desugar ih' plain'.desugar
  | loop condition step _ plain ih =>
    cases step with
    | none => exact .loop condition none ih plain.desugar
    | some step =>
      refine .loop condition none (.block ?_) trivial
      rw [List.forall_mem_cons]
      exact ⟨ih, List.forall_mem_singleton.mpr (.expression step)⟩
  | ret keyword value => exact .ret keyword value

/-- The first statement is the second one, or stands in it at any depth. -/
inductive Occurs (s : Stmt) : Stmt → Prop where
  | refl :
    Occurs s s
  | function {t : Stmt} {body : List Stmt} (name : Token) (parameters : List Token) :
    t ∈ body → Occurs s t →
    Occurs s (.function name parameters body)
  | block {t : Stmt} {body : List Stmt} :
    t ∈ body → Occurs s t →
    Occurs s (.block body)
  | ifThen (condition : Expr) {t : Stmt} :
    Occurs s t →
    Occurs s (.ifThen condition t)
  | ifElseThen (condition : Expr) {t : Stmt} (u : Stmt) :
    Occurs s t →
    Occurs s (.ifElse condition t u)
  | ifElse (condition : Expr) (t : Stmt) {u : Stmt} :
    Occurs s u →
    Occurs s (.ifElse condition t u)
  | loop (condition : Expr) (step : Option Expr) {t : Stmt} :
    Occurs s t →
    Occurs s (.loop condition step t)

/-- What stands in a proper statement is proper. -/
lemma Proper.of_occurs {s t : Stmt} (h : t.Proper) (occurs : s.Occurs t) : s.Proper := by
  induction occurs with
  | refl => exact h
  | function name parameters mem _ ih => cases h with | function _ _ proper => exact ih (proper _ mem)
  | block mem _ ih => cases h with | block proper => exact ih (proper _ mem)
  | ifThen condition _ ih => cases h with | ifThen _ proper _ => exact ih proper
  | ifElseThen condition u _ ih => cases h with | ifElse _ proper _ _ _ => exact ih proper
  | ifElse condition t _ ih => cases h with | ifElse _ _ _ proper _ => exact ih proper
  | loop condition step _ ih => cases h with | loop _ _ proper _ => exact ih proper

end Stmt

namespace Parsed

variable {α β : Type}

/-- If the result is done, its value has a property. -/
def All (Q : α → Prop) : Parsed α → Prop
  | done value _ _ => Q value
  | failed _ _ _ => True

/-- Earlier errors do not change the value. -/
lemma All.after {Q : α → Prop} {p : Parsed α} (h : p.All Q) (earlier : List SyntaxError) :
    (p.after earlier).All Q := by
  cases p with
  | done value rest errors => exact h
  | failed error rest errors => trivial

/-- A property of the value may be replaced by one that follows from it. -/
lemma All.imp {Q R : α → Prop} {p : Parsed α} (h : p.All Q) (weaken : ∀ value, Q value → R value) :
    p.All R := by
  cases p with
  | done value rest errors => exact weaken value h
  | failed error rest errors => trivial

/-- A property of the values of a first rule decides what is known behind it. -/
lemma All.bind {Q : α → Prop} {R : β → Prop} {p : Parsed α} {next : α → List Token → Parsed β}
    (h : p.All Q) (behind : ∀ value rest, Q value → (next value rest).All R) :
    (p.bind next).All R := by
  cases p with
  | done value rest errors => exact (behind value rest h).after errors
  | failed error rest errors => trivial

/-- What is made of the value has a property if the value's own property says so. -/
lemma All.map {Q : α → Prop} {R : β → Prop} {p : Parsed α} {f : α → β} (h : p.All Q)
    (behind : ∀ value, Q value → R (f value)) : (p.map f).All R :=
  h.bind fun value _ q => behind value q

/-- Of any result nothing may be asked. -/
lemma All.trivial (p : Parsed α) : p.All fun _ => True := by
  cases p <;> exact True.intro

end Parsed

/-- The tokens left by a rule that is done are within its bound. -/
lemma Bounded.all_bind {α β : Type} {n : Nat} {Q : α → Prop} {R : β → Prop} {p : Bounded α n}
    {next : α → List Token → Parsed β} (h : p.result.All Q)
    (behind : ∀ value rest, rest.length < n → Q value → (next value rest).All R) :
    (p.result.bind next).All R := by
  obtain ⟨result, within⟩ := p
  cases result with
  | done value rest errors => exact (behind value rest within h).after errors
  | failed error rest errors => trivial

namespace Parse

variable (eof : Token)

/-- A statement that is proper and declares nothing. -/
def Branch (s : Stmt) : Prop :=
  s.Proper ∧ s.Plain

/-- Statements all of which are proper. -/
def Body (ss : List Stmt) : Prop :=
  ∀ s ∈ ss, s.Proper

/-- Proper statements behind proper ones are so together. -/
lemma Body.append {ss ts : List Stmt} (first : Body ss) (second : Body ts) : Body (ss ++ ts) := by
  intro s mem
  rcases List.mem_append.mp mem with mem | mem
  · exact first s mem
  · exact second s mem

/-- Recovery keeps proper statements only. -/
lemma recovered_body {p : Parsed Stmt} (h : p.All Stmt.Proper) :
    Body (recovered p).1.toList := by
  cases p with
  | done statement rest errors =>
    intro s mem
    obtain rfl := List.mem_singleton.mp mem
    exact h
  | failed error rest errors => exact nofun

/-- A variable declaration is proper. -/
lemma variableDeclaration_proper (tokens : List Token) :
    (variableDeclaration eof tokens).result.All Stmt.Proper := by
  rw [result_variableDeclaration]
  refine (Parsed.All.trivial _).bind fun name rest _ => ?_
  cases rest with
  | nil => trivial
  | cons token rest =>
    dsimp only
    split
    · exact (Parsed.All.trivial _).map fun e _ => .var name (some e)
    · exact (Parsed.All.trivial _).map fun _ _ => .var name none

/-- The initializer of a loop is proper if there is one. -/
lemma initializer_body (tokens : List Token) :
    (initializer eof tokens).result.All fun s? => Body s?.toList := by
  have single : ∀ {s : Stmt}, s.Proper → Body (some s).toList := by
    intro s proper t mem
    obtain rfl := List.mem_singleton.mp mem
    exact proper
  cases tokens with
  | nil =>
    rw [result_initializer_nil]
    exact (Parsed.All.trivial _).map fun e _ => single (.expression e)
  | cons token rest =>
    rw [result_initializer_cons]
    split
    · exact nofun
    · split
      · exact (variableDeclaration_proper eof rest).map fun s proper => single proper
      · exact (Parsed.All.trivial _).map fun e _ => single (.expression e)

/-- The initializer that is read with the other parts of a loop is proper. -/
lemma clauses_body (tokens : List Token) :
    (clauses eof tokens).result.All fun clauses => Body clauses.initializer.toList := by
  rw [result_clauses]
  refine (Parsed.All.trivial _).bind fun _ rest _ => ?_
  refine (initializer_body eof rest).bind fun initializer rest proper => ?_
  refine (Parsed.All.trivial _).bind fun condition rest _ => ?_
  exact (Parsed.All.trivial _).map fun increment _ => proper

/-- A loop is proper if its parts and its body are. -/
lemma Branch.loop {clauses : ForClauses} {s : Stmt} (parts : Body clauses.initializer.toList)
    (body : Branch s) : Branch (clauses.statement s) := by
  refine ⟨.block (parts.append fun t mem => ?_), trivial⟩
  obtain rfl := List.mem_singleton.mp mem
  exact .loop _ _ body.1 body.2

/-- What the parser makes of any tokens is proper, and a statement declares nothing. -/
lemma proper :
    (∀ tokens, (declaration eof tokens).result.All Stmt.Proper) ∧
    (∀ tokens, (function eof tokens).result.All Stmt.Proper) ∧
    (∀ tokens, (block eof tokens).result.All Body) ∧
    (∀ tokens, (statement eof tokens).result.All Branch) ∧
    (∀ condition tokens, (branches eof condition tokens).result.All Branch) := by
  -- The induction follows the parser; errors matter nowhere, only the trees that are kept.
  apply declaration.mutual_induct eof
  case case1 =>
    intro statement
    rw [result_declaration_nil]
    exact statement.imp fun s branch => branch.1
  case case2 =>
    intro token rest isFun function
    rw [result_declaration_cons, if_pos isFun]
    exact function
  case case3 =>
    intro token rest notFun isVar
    rw [result_declaration_cons, if_neg notFun, if_pos isVar]
    exact variableDeclaration_proper eof rest
  case case4 =>
    intro token rest notFun notVar statement
    rw [result_declaration_cons, if_neg notFun, if_neg notVar]
    exact statement.imp fun s branch => branch.1
  case case5 =>
    intro tokens block
    rw [result_function]
    refine Bounded.all_bind (Parsed.All.trivial _) fun (name, parameters) rest shorter _ => ?_
    exact (block rest shorter).map fun body proper => .function name parameters proper
  case case6 =>
    rw [result_block_nil]
    trivial
  case case7 =>
    intro token rest isBrace
    rw [result_block_cons, if_pos isBrace]
    exact nofun
  case case8 =>
    intro token rest notBrace statement? rest' errors shorter found declaration block
    -- A block keeps the declarations that were read, whatever was skipped between them.
    have kept := recovered_body declaration
    rw [recovered_eq found] at kept
    rw [result_block_cons, if_neg notBrace, recovered_eq found]
    exact (block.map fun body proper => kept.append proper).after errors
  case case9 =>
    rw [result_statement_nil]
    exact (Parsed.All.trivial _).map fun e _ => ⟨.expression e, True.intro⟩
  case case10 =>
    intro token rest kind
    rw [result_statement_cons, kind]
    exact (Parsed.All.trivial _).map fun e _ => ⟨.print e, True.intro⟩
  case case11 =>
    intro token rest kind
    rw [result_statement_cons, kind]
    exact (Parsed.All.trivial _).map fun value _ => ⟨.ret token value, True.intro⟩
  case case12 =>
    intro token rest kind block
    rw [result_statement_cons, kind]
    exact block.map fun body proper => ⟨.block proper, True.intro⟩
  case case13 =>
    intro token rest kind branches
    rw [result_statement_cons, kind]
    exact Bounded.all_bind (Parsed.All.trivial _) fun condition rest shorter _ =>
      branches condition rest shorter
  case case14 =>
    intro token rest kind statement
    rw [result_statement_cons, kind]
    refine Bounded.all_bind (Parsed.All.trivial _) fun condition rest shorter _ => ?_
    refine (statement rest shorter).map fun s branch => ?_
    exact ⟨.loop condition none branch.1 branch.2, True.intro⟩
  case case15 =>
    intro token rest kind statement
    rw [result_statement_cons, kind]
    refine Bounded.all_bind (clauses_body eof rest) fun clauses rest shorter parts => ?_
    exact (statement rest shorter).map fun s branch => .loop parts branch
  case case16 =>
    intro token rest _ _ _ _ _ _
    rw [result_statement_cons]
    split
    case h_7 => exact (Parsed.All.trivial _).map fun e _ => ⟨.expression e, True.intro⟩
    all_goals contradiction
  case case17 =>
    intro condition tokens statement others
    rw [result_branches]
    refine Bounded.all_bind statement fun thenBranch rest shorter branch => ?_
    cases rest with
    | nil => exact ⟨.ifThen condition branch.1 branch.2, True.intro⟩
    | cons token rest =>
      dsimp only
      split
      · refine (others [] token rest shorter).map fun elseBranch other => ?_
        exact ⟨.ifElse condition branch.1 branch.2 other.1 other.2, True.intro⟩
      · exact ⟨.ifThen condition branch.1 branch.2, True.intro⟩

/-- The declarations of a program are proper. -/
lemma declarations_body (tokens : List Token) : Body (declarations eof tokens).1 := by
  induction size : tokens.length using Nat.strongRecOn generalizing tokens with
  | ind n ih =>
    cases tokens with
    | nil =>
      rw [declarations_nil]
      exact nofun
    | cons token rest =>
      have kept := recovered_body ((proper eof).1 (token :: rest))
      rw [declarations_cons]
      generalize found : recover (Nat.succ_pos _) (declaration eof (token :: rest)) = left
      obtain ⟨statement?, rest', errors, shorter⟩ := left
      rw [recovered_eq found] at kept ⊢
      exact kept.append (ih rest'.length (size ▸ shorter) rest' rfl)

end Parse

/-- Every statement of a program that the parser produces is proper. -/
theorem Program.proper_parseLoops (tokens : List Token) {s : Stmt}
    (mem : s ∈ (Program.parseLoops tokens).1) : s.Proper :=
  Parse.declarations_body _ _ s mem

/-- Whatever stands in a program that the parser produces is proper, also in the one without `for`
loops. -/
lemma Program.proper_parse {tokens : List Token} {s t : Stmt}
    (mem : t ∈ (Program.parse tokens).1) (occurs : s.Occurs t) : s.Proper := by
  rw [Program.parse_eq] at mem
  obtain ⟨u, found, rfl⟩ := List.mem_map.mp mem
  exact (Program.proper_parseLoops tokens found).desugar.of_occurs occurs

end Lox
