import Lox.Proofs.Syntax.Loops
import Lox.Proofs.Syntax.Progress
import Mathlib.Data.List.TakeWhile

/-!
# The cursor of the parser

The tokens that the parser has still to read are the last ones of a list with an end mark, so they
are a place in that list. The parser never leaves the part up to the first end mark: all rules go
forward in it, each declaration by a token at least, and a program is read when the cursor stands at
the mark.
-/

namespace Lox

/-- The tokens left by a rule, done or failed. -/
def Parsed.left {α : Type} : Parsed α → List Token
  | done _ rest _ => rest
  | failed _ rest _ => rest

/-- The errors of a rule, with the one with which it failed. -/
def Parsed.allErrors {α : Type} : Parsed α → List SyntaxError
  | done _ _ errors => errors
  | failed error _ errors => errors ++ [error]

/-- A frugal rule leaves the last of the tokens given. -/
lemma Parsed.Frugal.suffix {α : Type} {p : Parsed α} {tokens : List Token} {n : Nat}
    (h : p.Frugal tokens n) : p.left <:+ tokens := by
  cases p with
  | done value rest errors => exact h.1
  | failed error rest errors => exact h.1

namespace Parse

/-- The tokens with an end mark behind them unless the last one is an end mark already. -/
def completed (tokens : List Token) : List Token :=
  match tokens.getLast? with
  | some last =>
    if last.kind = .eof then tokens else tokens ++ [.endMark last.line last.span.stop]
  | none => [.endMark 1 0]

/-- The place in the completed list at which some of its tokens are left. -/
def cursor (tokens left : List Token) : Nat :=
  (beforeEnd tokens).length - left.length

section

variable {before behind : List Token} {mark : Token}
  (noEnd : ∀ token ∈ before, token.kind ≠ .eof) (isEnd : mark.kind = .eof)

include noEnd isEnd

/-- The tokens before the first end mark are read. -/
lemma beforeEnd_mark : beforeEnd (before ++ mark :: behind) = before := by
  rw [beforeEnd, List.takeWhile_append_of_pos fun token mem => decide_eq_true (noEnd token mem),
    List.takeWhile_cons_of_neg (by simp [isEnd]), List.append_nil]

/-- The first end mark is the end. -/
lemma endOf_mark : endOf (before ++ mark :: behind) = mark := by
  have none : before.find? (·.kind = .eof) = none := by
    rw [List.find?_eq_none]
    exact fun token mem => by simp [noEnd token mem]
  have found : (mark :: behind).find? (·.kind = .eof) = some mark :=
    List.find?_cons_of_pos (decide_eq_true isEnd)
  rw [endOf, List.find?_append, none, found]
  rfl

end

/-- The end of any tokens is an end mark. -/
lemma kind_endOf (tokens : List Token) : (endOf tokens).kind = .eof := by
  rw [endOf]
  split
  next mark _ found => simpa using List.find?_some found
  all_goals rfl

/-- No token that is read is an end mark. -/
lemma kind_beforeEnd (tokens : List Token) : ∀ token ∈ beforeEnd tokens, token.kind ≠ .eof := by
  intro token mem
  have kept := List.mem_takeWhile_imp mem
  exact of_decide_eq_true kept

/-- Up to the first end mark, the completed list has the tokens that the parser reads. -/
lemma completed_eq (tokens : List Token) :
    ∃ behind, completed tokens = beforeEnd tokens ++ endOf tokens :: behind := by
  by_cases ended : ∃ token ∈ tokens, token.kind = .eof
  · obtain ⟨token, mem, isEnd⟩ := ended
    have some : (tokens.find? (·.kind = .eof)).isSome :=
      List.find?_isSome.mpr ⟨token, mem, decide_eq_true isEnd⟩
    obtain ⟨mark, found⟩ := Option.isSome_iff_exists.mp some
    obtain ⟨isMark, before, behind, rfl, noEnd⟩ := List.find?_eq_some_iff_append.mp found
    have isMark := of_decide_eq_true isMark
    have noEnd : ∀ token ∈ before, token.kind ≠ .eof := fun token mem => by
      simpa using noEnd token mem
    rw [beforeEnd_mark noEnd isMark, endOf_mark noEnd isMark, completed]
    split
    · split
      · exact ⟨behind, rfl⟩
      · exact ⟨_, List.append_assoc _ _ _⟩
    · next empty => exact absurd (List.getLast?_eq_none_iff.mp empty) (by simp)
  · have noEnd : ∀ token ∈ tokens, token.kind ≠ .eof :=
      fun token mem isEnd => ended ⟨token, mem, isEnd⟩
    have all : beforeEnd tokens = tokens :=
      List.takeWhile_eq_self_iff.mpr fun token mem => decide_eq_true (noEnd token mem)
    have none : tokens.find? (·.kind = .eof) = none :=
      List.find?_eq_none.mpr fun token mem => by simp [noEnd token mem]
    rw [all, endOf, none, completed]
    cases last : tokens.getLast? with
    | none =>
      rw [List.getLast?_eq_none_iff.mp last]
      exact ⟨[], rfl⟩
    | some token =>
      dsimp only
      rw [if_neg (noEnd token (List.mem_of_getLast? last))]
      exact ⟨[], rfl⟩

/-- The parser reads the same from two lists that agree up to the first end mark. -/
lemma agree_of_prefix {tokens other : List Token}
    (agree : beforeEnd tokens ++ [endOf tokens] <+: completed other) :
    beforeEnd other = beforeEnd tokens ∧ endOf other = endOf tokens := by
  obtain ⟨rest, given⟩ := agree
  obtain ⟨behind, found⟩ := completed_eq other
  rw [List.append_assoc, List.singleton_append, found] at given
  have noEnd := kind_beforeEnd tokens
  have isEnd := kind_endOf tokens
  have noEnd' := kind_beforeEnd other
  have isEnd' := kind_endOf other
  constructor
  · have same := congrArg beforeEnd given
    rw [beforeEnd_mark noEnd isEnd, beforeEnd_mark noEnd' isEnd'] at same
    exact same.symm
  · have same := congrArg endOf given
    rw [endOf_mark noEnd isEnd, endOf_mark noEnd' isEnd'] at same
    exact same.symm

/-- The token at the cursor is the next one to be read, or the end mark. -/
lemma getElem?_cursor {tokens left : List Token} (part : left <:+ beforeEnd tokens) :
    (completed tokens)[cursor tokens left]? = some (front (endOf tokens) left) := by
  obtain ⟨behind, found⟩ := completed_eq tokens
  obtain ⟨read, split⟩ := part
  have place : cursor tokens left = read.length := by
    rw [cursor, ← split, List.length_append, Nat.add_sub_cancel_right]
  rw [found, place, ← split, List.append_assoc, List.getElem?_append_right (Nat.le_refl _),
    Nat.sub_self]
  cases left with
  | nil => rfl
  | cons token rest => rfl

/-- What the rules of the parser leave of the tokens that they are given. -/
inductive Leaves (eof : Token) : List Token → List Token → Prop where
  | expect (place : Expectation) (tokens : List Token) :
    Leaves eof tokens (expect eof place tokens).result.left
  | expression (power : Nat) (tokens : List Token) :
    Leaves eof tokens (expression eof power tokens).result.left
  | operand (tokens : List Token) :
    Leaves eof tokens (operand eof tokens).result.left
  | continued (power : Nat) (left : Expr) (tokens : List Token) :
    Leaves eof tokens (continued eof power left tokens).result.left
  | extended (left : Expr) (token : Token) (c : Continuation) (tokens : List Token) :
    Leaves eof tokens (extended eof left token c tokens).result.left
  | arguments (count : Nat) (tokens : List Token) :
    Leaves eof tokens (arguments eof count tokens).result.left
  | optional (place : Expectation) (tokens : List Token) :
    Leaves eof tokens (optional eof place tokens).result.left
  | closed (place : Expectation) (tokens : List Token) :
    Leaves eof tokens (closed eof place tokens).result.left
  | enclosed (start stop : Expectation) (tokens : List Token) :
    Leaves eof tokens (enclosed eof start stop tokens).result.left
  | variableDeclaration (tokens : List Token) :
    Leaves eof tokens (variableDeclaration eof tokens).result.left
  | parameters (count : Nat) (tokens : List Token) :
    Leaves eof tokens (parameters eof count tokens).result.left
  | parameterList (tokens : List Token) :
    Leaves eof tokens (parameterList eof tokens).result.left
  | signature (tokens : List Token) :
    Leaves eof tokens (signature eof tokens).result.left
  | initializer (tokens : List Token) :
    Leaves eof tokens (initializer eof tokens).result.left
  | clauses (tokens : List Token) :
    Leaves eof tokens (clauses eof tokens).result.left
  | declaration (tokens : List Token) :
    Leaves eof tokens (declaration eof tokens).result.left
  | function (tokens : List Token) :
    Leaves eof tokens (function eof tokens).result.left
  | statement (tokens : List Token) :
    Leaves eof tokens (statement eof tokens).result.left
  | branches (condition : Expr) (tokens : List Token) :
    Leaves eof tokens (branches eof condition tokens).result.left
  | block (tokens : List Token) :
    Leaves eof tokens (block eof tokens).result.left
  | resume (tokens : List Token) :
    Leaves eof tokens (resume tokens)

/-- All rules go forward. -/
lemma Leaves.suffix {eof : Token} {given left : List Token} (leaves : Leaves eof given left) :
    left <:+ given := by
  obtain ⟨expression, continued, extended, arguments, operand⟩ := expression_frugal eof
  obtain ⟨declaration, function, block, statement, branches⟩ := declaration_frugal eof
  cases leaves with
  | expect place => exact (expect_frugal eof place given).suffix
  | expression power => exact (expression power given).suffix
  | operand => exact (operand given).suffix
  | continued power left => exact (continued power left given).suffix
  | extended left token c => exact (extended left token c given).suffix
  | arguments count => exact (arguments count given).suffix
  | optional place => exact (optional_frugal eof place given).suffix
  | closed place => exact (closed_frugal eof place given).suffix
  | enclosed start stop => exact (enclosed_frugal eof start stop given).suffix
  | variableDeclaration => exact (variableDeclaration_frugal eof given).suffix
  | parameters count => exact (parameters_frugal eof count given).suffix
  | parameterList => exact (parameterList_frugal eof given).suffix
  | signature => exact (signature_frugal eof given).suffix
  | initializer => exact (initializer_frugal eof given).suffix
  | clauses => exact (clauses_frugal eof given).suffix
  | declaration => exact (declaration given).suffix
  | function => exact (function given).suffix
  | statement => exact (statement given).suffix
  | branches condition => exact (branches condition given).suffix
  | block => exact (block given).suffix
  | resume => exact resume_suffix given

/-- A declaration that is read in front of the end mark, with recovery, takes a token at least. -/
lemma recovered_suffix (eof token : Token) (rest : List Token) :
    (recovered (declaration eof (token :: rest)).result).2.1 <:+ rest := by
  generalize found : recover (Nat.succ_pos _) (declaration eof (token :: rest)) = left
  rw [recovered_eq found]
  exact (recovered_frugal ((declaration_frugal eof).1 _) found).1

/-- The rounds in which a program is read, one declaration each, from some tokens to others. -/
inductive Rounds (eof : Token) :
    List Token → List Token → Program → List SyntaxError → Prop where
  | stop (tokens : List Token) :
    Rounds eof tokens tokens [] []
  | round {token : Token} {rest rest' left : List Token} {statement? : Option Stmt}
      {earlier later : List SyntaxError} {program : Program} :
    recovered (declaration eof (token :: rest)).result = (statement?, rest', earlier) →
    rest' <:+ rest →
    Rounds eof rest' left program later →
    Rounds eof (token :: rest) left (statement?.toList ++ program) (earlier ++ later)

/-- A program is read in rounds down to the end mark, with an error for each token at most. -/
lemma declarations_rounds (eof : Token) (tokens : List Token) :
    Rounds eof tokens [] (declarations eof tokens).1 (declarations eof tokens).2 ∧
      (declarations eof tokens).2.length ≤ tokens.length := by
  induction size : tokens.length using Nat.strongRecOn generalizing tokens with
  | ind n ih =>
    cases tokens with
    | nil =>
      rw [declarations_nil]
      exact ⟨.stop [], Nat.zero_le _⟩
    | cons token rest =>
      rw [declarations_cons]
      generalize found : recover (Nat.succ_pos _) (declaration eof (token :: rest)) = left
      obtain ⟨statement?, rest', errors, shorter⟩ := left
      obtain ⟨forward, paid⟩ := recovered_frugal ((declaration_frugal eof).1 _) found
      obtain ⟨rounds, later⟩ := ih rest'.length (size ▸ shorter) rest' rfl
      have found := recovered_eq found
      rw [found]
      refine ⟨.round found forward rounds, ?_⟩
      rw [List.length_append]
      omega

/-- Progress of the parser over some tokens, whatever they are. -/
structure Progress (tokens : List Token) : Prop where
  /-- The completed list has an end mark, and the tokens before the first one are read. -/
  completed : ∃ behind, completed tokens = beforeEnd tokens ++ endOf tokens :: behind
  ended : (endOf tokens).kind = .eof
  before : ∀ token ∈ beforeEnd tokens, token.kind ≠ .eof
  /-- Wherever reading goes on, the cursor is inside of the completed list, not behind the first end
  mark, and the token there is the one that is looked at. -/
  inside : ∀ left, left <:+ beforeEnd tokens →
    cursor tokens left ≤ (beforeEnd tokens).length ∧
      (Parse.completed tokens)[cursor tokens left]? = some (front (endOf tokens) left)
  /-- No rule goes back or leaves the tokens before the mark. -/
  forward : ∀ given left, given <:+ beforeEnd tokens → Leaves (endOf tokens) given left →
    left <:+ beforeEnd tokens ∧ cursor tokens given ≤ cursor tokens left
  /-- A declaration in front of the mark takes a token at least, also if it fails. -/
  declaration : ∀ token rest, token :: rest <:+ beforeEnd tokens →
    let left := (recovered (declaration (endOf tokens) (token :: rest)).result).2.1
    left <:+ beforeEnd tokens ∧ cursor tokens (token :: rest) < cursor tokens left
  /-- The declarations of a program are read one behind the other, down to the mark. -/
  program : Rounds (endOf tokens) (beforeEnd tokens) []
    (Program.parseLoops tokens).1 (Program.parseLoops tokens).2
  /-- What has been read is desugared statement by statement, and the errors stay as they are. -/
  desugared : Program.parse tokens =
    ((Program.parseLoops tokens).1.map Stmt.desugar, (Program.parseLoops tokens).2)
  /-- Tokens behind the mark do not matter. -/
  independent : ∀ other, beforeEnd tokens ++ [endOf tokens] <+: Parse.completed other →
    Program.parse other = Program.parse tokens ∧ Expr.parse other = Expr.parse tokens
  /-- Errors are about tokens up to the mark. -/
  places : ∀ e ∈ (Program.parse tokens).2 ++ (Expr.parse tokens).allErrors,
    e.token ∈ beforeEnd tokens ++ [endOf tokens]
  /-- There are no more errors than tokens before the mark; an expression alone may fail at the mark
  without any token. -/
  programErrors : (Program.parse tokens).2.length ≤ (beforeEnd tokens).length
  expressionErrors : (Expr.parse tokens).allErrors.length ≤ max (beforeEnd tokens).length 1

/-- The fewer tokens are left, the further the cursor is. -/
lemma cursor_mono {tokens given left : List Token} (part : left <:+ given) :
    cursor tokens given ≤ cursor tokens left :=
  Nat.sub_le_sub_left part.length_le _

/-- With at least a token less left, the cursor is further. -/
lemma cursor_lt {tokens rest left : List Token} {token : Token}
    (given : token :: rest <:+ beforeEnd tokens) (part : left <:+ rest) :
    cursor tokens (token :: rest) < cursor tokens left := by
  have bound := given.length_le
  have shorter := part.length_le
  rw [List.length_cons] at bound
  rw [cursor, cursor, List.length_cons]
  omega

/-- The error with which a rule fails is about certain tokens as the others are. -/
lemma allErrors_drawn {α : Type} {T : Token → Prop} {Q : α → Prop} {p : Parsed α}
    (h : p.Drawn T Q) : ∀ e ∈ p.allErrors, T e.token := by
  cases p with
  | done value rest errors => exact h.2.2
  | failed error rest errors =>
    exact List.forall_mem_append.mpr ⟨h.2.2, List.forall_mem_singleton.mpr h.1⟩

/-- There are no more errors than tokens, but for one where there are none. -/
lemma allErrors_frugal {α : Type} {tokens : List Token} {p : Parsed α} (h : Pays tokens p) :
    p.allErrors.length ≤ max tokens.length 1 := by
  cases p with
  | done value rest errors => exact Nat.le_of_lt (Nat.lt_of_le_of_lt (Nat.le_add_right _ _) h.2)
  | failed error rest errors =>
    have bound := h.2
    rw [Parsed.allErrors, List.length_append, List.length_singleton]
    omega

end Parse

/-- The parser reads any list of tokens to its first end mark and no further, goes forward with each
declaration, and reports no more errors than it reads tokens. -/
theorem Program.parse_progress (tokens : List Token) : Parse.Progress tokens := by
  have given : ∀ t ∈ Parse.beforeEnd tokens, t ∈ Parse.beforeEnd tokens ++ [Parse.endOf tokens] :=
    fun _ mem => List.mem_append_left _ mem
  have atEnd : Parse.endOf tokens ∈ Parse.beforeEnd tokens ++ [Parse.endOf tokens] :=
    List.mem_append_right _ (List.mem_singleton_self _)
  have drawn := Parse.declarations_drawn atEnd (Parse.beforeEnd tokens) given
  have rounds := Parse.declarations_rounds (Parse.endOf tokens) (Parse.beforeEnd tokens)
  have pays := (Parse.expression_frugal (Parse.endOf tokens)).1 0 (Parse.beforeEnd tokens)
  exact {
    completed := Parse.completed_eq tokens
    ended := Parse.kind_endOf tokens
    before := Parse.kind_beforeEnd tokens
    inside := fun left part => ⟨Nat.sub_le _ _, Parse.getElem?_cursor part⟩
    forward := fun given left part leaves =>
      ⟨leaves.suffix.trans part, Parse.cursor_mono leaves.suffix⟩
    declaration := fun token rest part =>
      have forward := Parse.recovered_suffix (Parse.endOf tokens) token rest
      ⟨forward.trans ((List.suffix_cons token rest).trans part), Parse.cursor_lt part forward⟩
    program := rounds.1
    desugared := Program.parse_eq tokens
    independent := fun other agree => by
      obtain ⟨same, sameEnd⟩ := Parse.agree_of_prefix agree
      rw [Program.parse, Program.parseLoops, Expr.parse, same, sameEnd]
      exact ⟨rfl, rfl⟩
    places := List.forall_mem_append.mpr
      ⟨drawn.2, Parse.allErrors_drawn (Parse.whole_drawn atEnd given)⟩
    programErrors := rounds.2
    expressionErrors := Parse.allErrors_frugal pays }

end Lox
