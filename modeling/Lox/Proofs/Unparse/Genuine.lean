import Lox.Proofs.Grammar.Statements
import Lox.Proofs.Unparse.Write

/-!
# Parsed trees are genuine

Whatever the tokens are, and whatever the parser has objected to, the trees that it keeps are built
as the grammar builds trees. Where the right side of an assignment is dropped, the left side stands
in front of a token that goes on with no operator, and a dropped statement leaves the block in which
it stood as it was. What a rule leaves to read says what may follow its tree: operators that hold it
less tightly, and no `else` that it could take.
-/

namespace Lox

namespace Parsed

variable {α β : Type} {Q : α → List Token → Prop} {R : β → List Token → Prop}

/-- If the result is done, its value and the tokens left have a property. -/
def Gives (Q : α → List Token → Prop) : Parsed α → Prop
  | done value rest _ => Q value rest
  | failed _ _ _ => True

/-- Earlier errors change neither the value nor the tokens left. -/
lemma Gives.after {p : Parsed α} (h : p.Gives Q) (earlier : List SyntaxError) :
    (p.after earlier).Gives Q := by
  cases p with
  | done value rest errors => exact h
  | failed error rest errors => trivial

/-- A property of the value may be replaced by one that follows from it. -/
lemma Gives.imp {Q' : α → List Token → Prop} {p : Parsed α} (h : p.Gives Q)
    (weaken : ∀ value rest, Q value rest → Q' value rest) : p.Gives Q' := by
  cases p with
  | done value rest errors => exact weaken value rest h
  | failed error rest errors => trivial

/-- What goes on behind a rule knows what the rule gives. -/
lemma Gives.bind {p : Parsed α} {next : α → List Token → Parsed β} (h : p.Gives Q)
    (behind : ∀ value rest, Q value rest → (next value rest).Gives R) : (p.bind next).Gives R := by
  cases p with
  | done value rest errors => exact (behind value rest h).after errors
  | failed error rest errors => trivial

/-- What is made of the value has a property if the value's own property says so. -/
lemma Gives.map {p : Parsed α} {f : α → β} (h : p.Gives Q)
    (behind : ∀ value rest, Q value rest → R (f value) rest) : (p.map f).Gives R :=
  h.bind behind

end Parsed

/-- The tokens left by a rule that is done are within its bound. -/
lemma Bounded.gives_bind {α β : Type} {n : Nat} {Q : α → List Token → Prop}
    {R : β → List Token → Prop} {p : Bounded α n} {next : α → List Token → Parsed β}
    (h : p.result.Gives Q)
    (behind : ∀ value rest, rest.length < n → Q value rest → (next value rest).Gives R) :
    (p.result.bind next).Gives R := by
  obtain ⟨result, within⟩ := p
  cases result with
  | done value rest errors => exact (behind value rest within h).after errors
  | failed error rest errors => trivial

namespace Parse

open Grammar

variable (eof : Token)

/-- An expression with at least some power, and nothing behind it that goes on with it. -/
def Ended (power : Nat) (e : Expr) (rest : List Token) : Prop :=
  ∃ level, e.Genuine level ∧ power ≤ level.power ∧ Stops power rest

/-- An expression made by an operator that holds its left side with some power. No rule asks for a
power of 2, which only assignments have. -/
def Extended (power : Nat) (e : Expr) (rest : List Token) : Prop :=
  ∃ level, e.Genuine level ∧
    (∀ power', power' ≤ power → power' ≠ 2 → power' ≤ level.power) ∧ Stops (level.power + 1) rest

/-- A whole expression, whatever follows. -/
abbrev Whole (e : Expr) (_ : List Token) : Prop :=
  e.Genuine .assignment

/-- A statement, and no `else` behind it that it could take. -/
def Settled (s : Stmt) (rest : List Token) : Prop :=
  ∃ ending, s.desugar.Genuine (.statement ending) ∧ (ending = .pending → NoElse rest)

/-- A declaration, whatever follows. -/
abbrev Declared (s : Stmt) (_ : List Token) : Prop :=
  s.desugar.Genuine .declaration

/-- An expected token is of the expected kind. -/
lemma expect_gives (place : Expectation) (tokens : List Token) :
    (expect eof place tokens).result.Gives fun token _ => token.kind = place.kind := by
  cases tokens with
  | nil => trivial
  | cons token rest =>
    rw [result_expect_cons]
    split
    case isTrue fits => exact fits
    case isFalse => trivial

/-- A statement that takes no `else` is settled, whatever follows. -/
lemma Settled.closed {s : Stmt} {rest : List Token}
    (genuine : s.desugar.Genuine (.statement .closed)) : Settled s rest := by
  refine ⟨.closed, genuine, fun pending => ?_⟩
  cases pending

/-- A settled statement is a declaration, whatever follows. -/
lemma Settled.declared {s : Stmt} {rest : List Token} (h : Settled s rest) : Declared s rest := by
  obtain ⟨ending, genuine, _⟩ := h
  exact .among genuine

/-- An operator of a level between its operands. -/
lemma Extended.operator {power : Nat} {level level' : Level} {left right : Expr}
    {rest : List Token} {build : Expr → Expr → Expr} (same : power = level'.power)
    (genuine : left.Genuine level) (le : power ≤ level.power) (ended : Ended (power + 1) right rest)
    (rule : ∀ {e f : Expr}, e.Genuine level' → f.Genuine level'.tighter →
      (build e f).Genuine level') :
    Extended power (build left right) rest := by
  subst same
  obtain ⟨level'', genuine', tight, stops⟩ := ended
  refine ⟨level', ?_, fun power' le _ => le, stops⟩
  exact rule (genuine.loosen le) (genuine'.loosen (Level.power_tighter_le tight))

/-- The rules of expressions build genuine trees. -/
lemma expression_genuine :
    (∀ power tokens, power ≤ 15 → power ≠ 2 →
      (expression eof power tokens).result.Gives (Ended power)) ∧
    (∀ power left tokens, power ≤ 15 → power ≠ 2 → ∀ level, left.Genuine level →
      power ≤ level.power → Stops (level.power + 1) tokens →
      (continued eof power left tokens).result.Gives (Ended power)) ∧
    (∀ left token c tokens, Continuation.ofKind? token.kind = some c → ∀ level,
      left.Genuine level → c.leftPower ≤ level.power →
      (extended eof left token c tokens).result.Gives (Extended c.leftPower)) ∧
    (∀ count tokens, (arguments eof count tokens).result.Gives fun es _ =>
      ∀ e ∈ es, e.Genuine .assignment) ∧
    (∀ tokens, (operand eof tokens).result.Gives fun e rest => ∃ level, e.Genuine level ∧
      15 ≤ level.power ∧ Stops (level.power + 1) rest) := by
  apply expression.mutual_induct eof
  case case1 =>
    intro power tokens operand continued small odd
    rw [result_expression]
    refine Bounded.gives_bind operand fun left rest shorter found => ?_
    obtain ⟨level, genuine, tight, stops⟩ := found
    exact continued left rest shorter small odd level genuine (Nat.le_trans small tight) stops
  case case2 =>
    intro power left small odd level genuine le stops
    rw [result_continued_nil]
    exact ⟨level, genuine, le, trivial⟩
  case case3 =>
    intro power left token rest none small odd level genuine le stops
    rw [continued_of_stops eof (.of_none none power rest)]
    exact ⟨level, genuine, le, .of_none none power rest⟩
  case case4 =>
    intro power left token rest c found lt small odd level genuine le stops
    rw [continued_of_stops eof (.of_some found lt rest)]
    exact ⟨level, genuine, le, .of_some found lt rest⟩
  case case5 =>
    intro power left token rest c found notLt extended continued small odd level genuine le stops
    have le := Nat.le_of_not_lt notLt
    rw [continued_of_le eof found le]
    -- What stands in front may be the left side: nothing that binds tighter goes on with it.
    refine Bounded.gives_bind (extended found level genuine (Nat.le_of_lt_succ (stops c found))) ?_
    rintro left' rest' shorter ⟨level', genuine', tight, stops'⟩
    exact continued left' rest' shorter small odd level' genuine' (tight power le odd) stops'
  case case6 =>
    intro left token tokens closing found level genuine le
    rw [result_extended_call, if_pos closing]
    refine (expect_gives eof _ tokens).map fun paren rest isParen => ?_
    have none : ∀ e ∈ ([] : List Expr), e.Genuine .assignment := List.forall_mem_nil _
    exact ⟨.call, .call (genuine.loosen le) isParen none, fun power le _ => le, .call rest⟩
  case case7 =>
    intro left token tokens notClosing arguments found level genuine le
    rw [result_extended_call, if_neg notClosing]
    refine arguments.bind fun es rest all => ?_
    refine (expect_gives eof _ rest).map fun paren rest isParen => ?_
    exact ⟨.call, .call (genuine.loosen le) isParen all, fun power le _ => le, .call rest⟩
  case case8 =>
    intro left token tokens op right found level genuine le
    obtain ⟨level', isOp⟩ := continuation_cases found
    have small : op.leftPower + 1 ≤ 15 := by cases op <;> decide
    have odd : op.leftPower + 1 ≠ 2 := by cases op <;> decide
    rw [result_extended_binary]
    refine (right small odd).map fun value rest ended => ?_
    exact .operator isOp.continuation.2 genuine le ended fun left right => .binary left isOp right
  case case9 =>
    intro left token tokens op right found level genuine le
    obtain ⟨level', isOp⟩ := continuation_cases found
    have small : op.leftPower + 1 ≤ 15 := by cases op <;> decide
    have odd : op.leftPower + 1 ≠ 2 := by cases op <;> decide
    rw [result_extended_logical]
    refine (right small odd).map fun value rest ended => ?_
    exact .operator isOp.continuation.2 genuine le ended fun left right => .logical left isOp right
  case case10 =>
    intro left token tokens right found level genuine le
    rw [result_extended_assign]
    refine (right (by decide) (by decide)).bind fun value rest ended => ?_
    obtain ⟨level', genuine', _, stops⟩ := ended
    split
    · -- An assignment binds its name with 2 and counts as 1 itself, but no rule asks for 2.
      refine ⟨.assignment, .assign genuine.kind_ident genuine'.whole, ?_, stops.weaken (by decide)⟩
      exact fun power le odd => Nat.le_of_lt_succ (Nat.lt_of_le_of_ne le odd)
    · -- The left side is kept alone, and no operator is left for it to be continued with.
      refine ⟨level, genuine, fun power small _ => Nat.le_trans small le, ?_⟩
      exact stops.weaken (Nat.le_add_left 1 _)
  case case11 =>
    intro count tokens first others
    rw [result_arguments]
    refine Parsed.Gives.after ?_ _
    refine Bounded.gives_bind (first (by decide) (by decide)) ?_
    rintro e rest shorter ⟨level, genuine, _⟩
    have single : ∀ f ∈ [e], f.Genuine .assignment := List.forall_mem_singleton.mpr genuine.whole
    cases rest with
    | nil => exact single
    | cons comma rest =>
      dsimp only
      split
      · refine (others comma rest shorter).map fun es _ all => ?_
        exact List.forall_mem_cons.mpr ⟨genuine.whole, all⟩
      · exact single
  case case12 =>
    rw [result_operand_nil]
    trivial
  case case13 =>
    intro token rest none
    rw [result_operand_cons, none]
    trivial
  case case14 =>
    intro token rest atom leading
    rw [result_operand_cons, leading]
    exact ⟨.primary, .literal atom, by decide, (Stops.call rest).weaken (by decide)⟩
  case case15 =>
    intro token rest leading
    rw [result_operand_cons, leading]
    have isName : token.kind = .identifier := leading_cases leading
    exact ⟨.primary, .ident isName, by decide, (Stops.call rest).weaken (by decide)⟩
  case case16 =>
    intro token rest op leading inner
    have same : op.power = 15 := by cases op <;> rfl
    rw [result_operand_cons, leading]
    rw [same] at inner
    dsimp only
    rw [same]
    refine (inner (by decide) (by decide)).map fun e rest ended => ?_
    obtain ⟨level, genuine, tight, stops⟩ := ended
    refine ⟨.unary, ?_, by decide, stops.weaken (by decide)⟩
    exact .unary (leading_cases leading) (genuine.loosen tight)
  case case17 =>
    intro token rest leading inner
    rw [result_operand_cons, leading]
    refine (inner (by decide) (by decide)).bind fun e rest ended => ?_
    obtain ⟨level, genuine, _⟩ := ended
    refine (expect_gives eof _ rest).map fun _ rest _ => ?_
    exact ⟨.primary, .group genuine.whole, by decide, (Stops.call rest).weaken (by decide)⟩

/-- An expression that is read is genuine. -/
lemma whole_genuine (tokens : List Token) : (expression eof 0 tokens).result.Gives Whole := by
  refine ((expression_genuine eof).1 0 tokens (by decide) (by decide)).imp fun e rest ended => ?_
  obtain ⟨_, genuine, _⟩ := ended
  exact genuine.whole

/-- An expression that is read with a token behind it is genuine. -/
lemma closed_genuine (place : Expectation) (tokens : List Token) :
    (closed eof place tokens).result.Gives Whole := by
  rw [result_closed]
  refine (whole_genuine eof tokens).bind fun e rest genuine => ?_
  exact (expect_gives eof place rest).map fun _ _ _ => genuine

/-- An expression that may be missing is genuine if it is there. -/
lemma optional_genuine (place : Expectation) (tokens : List Token) :
    (optional eof place tokens).result.Gives fun e? _ => ∀ e ∈ e?, e.Genuine .assignment := by
  rw [result_optional]
  split
  · exact (expect_gives eof place tokens).map fun _ _ _ => nofun
  · refine (whole_genuine eof tokens).bind fun e rest genuine => ?_
    exact (expect_gives eof place rest).map fun _ _ _ => by
      rintro _ ⟨⟩
      exact genuine

/-- An expression that is read between two tokens is genuine. -/
lemma enclosed_genuine (start stop : Expectation) (tokens : List Token) :
    (enclosed eof start stop tokens).result.Gives Whole := by
  rw [result_enclosed]
  exact (expect_gives eof start tokens).bind fun _ rest _ => closed_genuine eof stop rest

/-- A variable declaration that is read is genuine. -/
lemma variableDeclaration_genuine (tokens : List Token) :
    (variableDeclaration eof tokens).result.Gives Declared := by
  rw [result_variableDeclaration]
  refine (expect_gives eof _ tokens).bind fun name rest isName => ?_
  cases rest with
  | nil => trivial
  | cons token rest =>
    dsimp only
    split
    · refine (closed_genuine eof _ rest).map fun e _ genuine => .var isName ?_
      rintro _ ⟨⟩
      exact genuine
    · exact (expect_gives eof _ (token :: rest)).map fun _ _ _ => .var isName nofun

/-- Parameters that are read are names. -/
lemma parameters_genuine (count : Nat) (tokens : List Token) :
    (parameters eof count tokens).result.Gives fun names _ =>
      ∀ name ∈ names, name.kind = .identifier := by
  induction count, tokens using parameters.induct with
  | case1 count tokens others =>
    rw [result_parameters]
    refine Parsed.Gives.after (Bounded.gives_bind (expect_gives eof _ tokens) ?_) _
    intro name rest shorter isName
    have single : ∀ p ∈ [name], p.kind = .identifier := List.forall_mem_singleton.mpr isName
    cases rest with
    | nil => exact single
    | cons comma rest =>
      dsimp only
      split
      · refine (others comma rest shorter).map fun names _ all => ?_
        exact List.forall_mem_cons.mpr ⟨isName, all⟩
      · exact single

/-- Parameters that are read with their parenthesis are names. -/
lemma parameterList_genuine (tokens : List Token) :
    (parameterList eof tokens).result.Gives fun names _ =>
      ∀ name ∈ names, name.kind = .identifier := by
  rw [result_parameterList]
  split
  · exact (expect_gives eof _ tokens).map fun _ _ _ => nofun
  · refine (parameters_genuine eof 0 tokens).bind fun names rest all => ?_
    exact (expect_gives eof _ rest).map fun _ _ _ => all

/-- A function and its parameters that are read have names. -/
lemma signature_genuine (tokens : List Token) :
    (signature eof tokens).result.Gives fun signature _ =>
      signature.1.kind = .identifier ∧ ∀ name ∈ signature.2, name.kind = .identifier := by
  rw [result_signature]
  refine (expect_gives eof _ tokens).bind fun name rest isName => ?_
  refine (expect_gives eof _ rest).bind fun _ rest _ => ?_
  refine (parameterList_genuine eof rest).bind fun names rest all => ?_
  exact (expect_gives eof _ rest).map fun _ _ _ => ⟨isName, all⟩

/-- The initializer of a loop that is read is genuine. -/
lemma initializer_genuine (tokens : List Token) :
    (initializer eof tokens).result.Gives fun s? _ =>
      ∀ s ∈ s?, s.desugar.Genuine .declaration := by
  cases tokens with
  | nil =>
    rw [result_initializer_nil]
    refine (closed_genuine eof _ []).map fun e _ genuine => ?_
    rintro _ ⟨⟩
    exact .among (.expression genuine)
  | cons token rest =>
    rw [result_initializer_cons]
    split
    · exact nofun
    · split
      · refine (variableDeclaration_genuine eof rest).map fun s _ genuine => ?_
        rintro _ ⟨⟩
        exact genuine
      · refine (closed_genuine eof _ (token :: rest)).map fun e _ genuine => ?_
        rintro _ ⟨⟩
        exact .among (.expression genuine)

/-- The parts of a loop are genuine where they are there. -/
abbrev Parts (clauses : ForClauses) (_ : List Token) : Prop :=
  (∀ s ∈ clauses.initializer, s.desugar.Genuine .declaration) ∧
    (∀ e ∈ clauses.condition, e.Genuine .assignment) ∧
    ∀ e ∈ clauses.increment, e.Genuine .assignment

/-- The parts of a loop that are read are genuine. -/
lemma clauses_genuine (tokens : List Token) : (clauses eof tokens).result.Gives Parts := by
  rw [result_clauses]
  refine (expect_gives eof _ tokens).bind fun _ rest _ => ?_
  refine (initializer_genuine eof rest).bind fun initializer rest first => ?_
  refine (optional_genuine eof _ rest).bind fun condition rest second => ?_
  exact (optional_genuine eof _ rest).map fun increment _ third => ⟨first, second, third⟩

/-- A `for` loop stands for a block, which is closed whatever its body is. -/
lemma Parts.settled {clauses : ForClauses} {body : Stmt} {rest rest' : List Token}
    (parts : Parts clauses rest) (inside : Settled body rest') :
    Settled (clauses.statement body) rest' := by
  obtain ⟨first, second, third⟩ := parts
  obtain ⟨ending, genuine, _⟩ := inside
  obtain ⟨initializer, condition, increment⟩ := clauses
  refine .closed ?_
  rw [ForClauses.desugar_statement, ForClauses.whileLoop]
  refine .block (List.forall_mem_append.mpr ⟨?_, List.forall_mem_singleton.mpr ?_⟩)
  · intro s mem
    obtain ⟨s, isPart, rfl⟩ := Option.map_eq_some_iff.mp (Option.mem_toList.mp mem)
    exact first s isPart
  · have whole : (condition.getD (.literal (.boolean true))).Genuine .assignment := by
      cases condition with
      | none => exact (Expr.Genuine.literal _).whole
      | some e => exact second e rfl
    cases increment with
    | none => exact .among (.loop whole genuine)
    | some step =>
      have last : ∀ s ∈ [Stmt.expression step], s.Genuine .declaration :=
        List.forall_mem_singleton.mpr (.among (.expression (third step rfl)))
      exact .among (.loop whole (.block (List.forall_mem_cons.mpr ⟨.among genuine, last⟩)))

/-- Recovery keeps genuine trees only. -/
lemma recovered_genuine {p : Parsed Stmt} (h : p.Gives Declared) :
    ∀ s ∈ (recovered p).1.toList, s.desugar.Genuine .declaration := by
  cases p with
  | done statement rest errors => exact List.forall_mem_singleton.mpr h
  | failed error rest errors => exact nofun

/-- The rules of statements build trees that are genuine once they are desugared. -/
lemma declaration_genuine :
    (∀ tokens, (declaration eof tokens).result.Gives Declared) ∧
    (∀ tokens, (function eof tokens).result.Gives Declared) ∧
    (∀ tokens, (block eof tokens).result.Gives fun ss _ =>
      ∀ s ∈ ss, s.desugar.Genuine .declaration) ∧
    (∀ tokens, (statement eof tokens).result.Gives Settled) ∧
    (∀ condition tokens, condition.Genuine .assignment →
      (branches eof condition tokens).result.Gives Settled) := by
  apply declaration.mutual_induct eof
  case case1 =>
    intro statement
    rw [result_declaration_nil]
    exact statement.imp fun s _ settled => settled.declared
  case case2 =>
    intro token rest isFun function
    rw [result_declaration_cons, if_pos isFun]
    exact function
  case case3 =>
    intro token rest notFun isVar
    rw [result_declaration_cons, if_neg notFun, if_pos isVar]
    exact variableDeclaration_genuine eof rest
  case case4 =>
    intro token rest notFun notVar statement
    rw [result_declaration_cons, if_neg notFun, if_neg notVar]
    exact statement.imp fun s _ settled => settled.declared
  case case5 =>
    intro tokens block
    rw [result_function]
    refine Bounded.gives_bind (signature_genuine eof tokens) ?_
    rintro ⟨name, names⟩ rest shorter ⟨isName, areNames⟩
    refine (block rest shorter).map fun body _ genuine => .function isName areNames ?_
    rw [Stmt.desugarAll_eq_map]
    exact List.forall_mem_map.mpr genuine
  case case6 =>
    rw [result_block_nil]
    trivial
  case case7 =>
    intro token rest isBrace
    rw [result_block_cons, if_pos isBrace]
    exact List.forall_mem_nil _
  case case8 =>
    intro token rest notBrace statement? rest' errors shorter found declaration block
    have kept := recovered_genuine declaration
    rw [recovered_eq found] at kept
    rw [result_block_cons, if_neg notBrace, recovered_eq found]
    refine Parsed.Gives.after ?_ errors
    exact block.map fun body _ genuine => List.forall_mem_append.mpr ⟨kept, genuine⟩
  case case9 =>
    rw [result_statement_nil]
    exact (closed_genuine eof _ []).map fun e _ genuine => .closed (.expression genuine)
  case case10 =>
    intro token rest kind
    rw [result_statement_cons, kind]
    exact (closed_genuine eof _ rest).map fun e _ genuine => .closed (.print genuine)
  case case11 =>
    intro token rest kind
    rw [result_statement_cons, kind]
    exact (optional_genuine eof _ rest).map fun value _ genuine =>
      .closed (.ret kind genuine)
  case case12 =>
    intro token rest kind block
    rw [result_statement_cons, kind]
    refine block.map fun body _ genuine => .closed (.block ?_)
    rw [Stmt.desugarAll_eq_map]
    exact List.forall_mem_map.mpr genuine
  case case13 =>
    intro token rest kind branches
    rw [result_statement_cons, kind]
    exact Bounded.gives_bind (enclosed_genuine eof _ _ rest) fun condition rest shorter genuine =>
      branches condition rest shorter genuine
  case case14 =>
    intro token rest kind statement
    rw [result_statement_cons, kind]
    refine Bounded.gives_bind (enclosed_genuine eof _ _ rest) ?_
    intro condition rest shorter genuine
    refine (statement rest shorter).map fun s _ settled => ?_
    obtain ⟨ending, inside, noElse⟩ := settled
    exact ⟨ending, .loop genuine inside, noElse⟩
  case case15 =>
    intro token rest kind statement
    rw [result_statement_cons, kind]
    refine Bounded.gives_bind (clauses_genuine eof rest) fun clauses rest shorter parts => ?_
    exact (statement rest shorter).map fun s _ inside => parts.settled inside
  case case16 =>
    intro token rest _ _ _ _ _ _
    rw [result_statement_cons]
    split
    case h_7 =>
      exact (closed_genuine eof _ (token :: rest)).map fun e _ genuine =>
        .closed (.expression genuine)
    all_goals contradiction
  case case17 =>
    intro condition tokens statement others whole
    rw [result_branches]
    refine Bounded.gives_bind statement ?_
    rintro thenBranch rest shorter ⟨ending, genuine, noElse⟩
    cases rest with
    | nil => exact ⟨.pending, .ifThen whole genuine, fun _ => trivial⟩
    | cons token rest =>
      dsimp only
      split
      case isTrue isElse =>
        -- A pending branch would have taken the `else` itself.
        have closed : ending = .closed := by
          cases ending with
          | closed => rfl
          | pending => exact absurd isElse (noElse rfl)
        subst closed
        refine (others [] token rest shorter).map fun elseBranch _ settled => ?_
        obtain ⟨ending, genuine', noElse⟩ := settled
        exact ⟨ending, .ifElse whole genuine genuine', noElse⟩
      case isFalse notElse => exact ⟨.pending, .ifThen whole genuine, fun _ => notElse⟩

/-- All declarations of a program are genuine. -/
lemma declarations_genuine (tokens : List Token) :
    ∀ s ∈ (declarations eof tokens).1, s.desugar.Genuine .declaration := by
  induction size : tokens.length using Nat.strongRecOn generalizing tokens with
  | ind n ih =>
    cases tokens with
    | nil =>
      rw [declarations_nil]
      exact nofun
    | cons token rest =>
      have kept := recovered_genuine ((declaration_genuine eof).1 (token :: rest))
      rw [declarations_cons]
      generalize found : recover (Nat.succ_pos _) (declaration eof (token :: rest)) = left
      obtain ⟨statement?, rest', errors, shorter⟩ := left
      rw [recovered_eq found] at kept ⊢
      have later := ih rest'.length (size ▸ shorter) rest' rfl
      exact List.forall_mem_append.mpr ⟨kept, later⟩

end Parse

/-- The program that the parser makes of any tokens is genuine. -/
lemma Program.parse_genuine (tokens : List Token) : (Program.parse tokens).1.Genuine := by
  rw [Program.parse_eq]
  exact List.forall_mem_map.mpr (Parse.declarations_genuine _ _)

end Lox
