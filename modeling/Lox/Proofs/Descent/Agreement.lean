import Lox.Proofs.Descent.Layers
import Lox.Proofs.Grammar.Levels

/-!
# Powers and layers read alike

The parser reads an operand and goes on with it as far as its powers allow; recursive descent reads
level by level. They agree because going on at a loose power is going on at a tight one first and
then at the loose one, and because what was read at a power leaves a token in front that holds less
tightly than that. Each level is compared with the powers of its operators under the assumption that
shorter lists of tokens are read alike.
-/

namespace Lox

namespace Parsed

variable {α β γ : Type}

/-- Errors reported twice in front are reported in their order. -/
lemma after_after (p : Parsed α) (earlier later : List SyntaxError) :
    (p.after later).after earlier = p.after (earlier ++ later) := by
  cases p <;> simp [after]

/-- Errors reported first stay first. -/
lemma bind_after (p : Parsed α) (earlier : List SyntaxError) (next : α → List Token → Parsed β) :
    (p.after earlier).bind next = (p.bind next).after earlier := by
  cases p with
  | done value rest errors => exact (after_after _ _ _).symm
  | failed error rest errors => rfl

/-- Of three rules, the first two may be taken together, or the last two. -/
lemma bind_assoc (p : Parsed α) (next : α → List Token → Parsed β)
    (last : β → List Token → Parsed γ) :
    (p.bind next).bind last = p.bind fun value rest => (next value rest).bind last := by
  cases p with
  | done value rest errors => exact bind_after _ _ _
  | failed error rest errors => rfl

/-- What is made of a value can as well be made by the rule behind. -/
lemma map_bind (p : Parsed α) (f : α → β) (next : β → List Token → Parsed γ) :
    (p.map f).bind next = p.bind fun value rest => next (f value) rest := by
  apply (bind_assoc _ _ _).trans
  congr
  funext value rest
  exact bind_done _ _ _

/-- A rule that is done has left tokens with a property. -/
def Leaves (Q : List Token → Prop) : Parsed α → Prop
  | done _ rest _ => Q rest
  | failed _ _ _ => True

/-- Earlier errors change nothing in what is left. -/
lemma Leaves.after {Q : List Token → Prop} {p : Parsed α} (h : p.Leaves Q)
    (earlier : List SyntaxError) : (p.after earlier).Leaves Q := by
  cases p <;> exact h

/-- What is left does not depend on what is made of the value. -/
lemma Leaves.map {Q : List Token → Prop} {p : Parsed α} (h : p.Leaves Q) (f : α → β) :
    (p.map f).Leaves Q := by
  cases p with
  | done value rest errors => exact h
  | failed error rest errors => trivial

end Parsed

namespace Bounded

variable {α β : Type} {n : Nat} {Q R : List Token → Prop}

/-- What is left at last is what the second rule leaves, which has fewer tokens to read. -/
lemma leaves_bind {p : Bounded α n} {next : α → List Token → Parsed β}
    (behind : ∀ value rest, rest.length < n → (next value rest).Leaves R) :
    (p.result.bind next).Leaves R := by
  obtain ⟨result, within⟩ := p
  cases result with
  | done value rest errors => exact (behind value rest within).after errors
  | failed error rest errors => trivial

/-- Two ways to go on are the same if they are for the tokens that a rule can leave. -/
lemma bind_congr {p : Bounded α n} {next next' : α → List Token → Parsed β}
    (left : p.result.Leaves Q)
    (same : ∀ value rest, rest.length < n → Q rest → next value rest = next' value rest) :
    p.result.bind next = p.result.bind next' := by
  obtain ⟨result, within⟩ := p
  cases result with
  | done value rest errors => exact congrArg (·.after errors) (same value rest within left)
  | failed error rest errors => rfl

end Bounded

/-- Any rule leaves some tokens. -/
lemma Parsed.leaves_any {α : Type} (p : Parsed α) : p.Leaves fun _ => True := by
  cases p <;> trivial

open Parse
open Grammar (Level Stops continued_of_stops continued_of_le)

namespace Descent

variable (eof : Token)

section Powers

/-- What goes on at a power goes on until something holds less tightly. -/
lemma continued_leaves (power : Nat) (left : Expr) (tokens : List Token) :
    (continued eof power left tokens).result.Leaves (Stops power) := by
  cases tokens with
  | nil =>
    rw [result_continued_nil]
    trivial
  | cons token rest =>
    rw [result_continued_cons]
    cases found : Continuation.ofKind? token.kind with
    | none => exact Stops.of_none found power rest
    | some c =>
      dsimp only
      split
      next lt => exact Stops.of_some found lt rest
      next =>
        apply Bounded.leaves_bind
        intro left rest' less
        exact continued_leaves power left rest'
termination_by tokens.length

/-- What is left behind an expression does not hold it with the power with which it was read. -/
lemma expression_leaves (power : Nat) (tokens : List Token) :
    (expression eof power tokens).result.Leaves (Stops power) := by
  rw [result_expression]
  apply Bounded.leaves_bind
  intro left rest _
  exact continued_leaves eof power left rest

/-- Going on at a power is over where something holds less tightly. -/
lemma bind_continued {power : Nat} {p : Parsed Expr} (h : p.Leaves (Stops power)) :
    (p.bind fun left rest => (continued eof power left rest).result) = p := by
  cases p with
  | done left rest errors =>
    apply (congrArg (Parsed.after errors) (continued_of_stops eof h left)).trans
    simp [Parsed.after]
  | failed error rest errors => rfl

/-- Going on at a loose power is going on at a tight one first. -/
lemma continued_split {loose tight : Nat} (le : loose ≤ tight) (left : Expr)
    (tokens : List Token) :
    (continued eof loose left tokens).result =
      (continued eof tight left tokens).result.bind fun left rest =>
        (continued eof loose left rest).result := by
  by_cases stops : Stops tight tokens
  · rw [continued_of_stops eof stops, Parsed.bind_done]
  · cases tokens with
    | nil => exact absurd trivial stops
    | cons token rest =>
      simp only [Stops, not_forall, Nat.not_lt] at stops
      obtain ⟨c, found, holds⟩ := stops
      rw [continued_of_le eof found (Nat.le_trans le holds), continued_of_le eof found holds,
        Parsed.bind_assoc]
      apply Bounded.bind_congr (Parsed.leaves_any _)
      intro left rest' less _
      exact continued_split le left rest'
termination_by tokens.length

/-- An expression at a loose power is one at a tight power with which reading goes on at the loose
one. -/
lemma expression_split {loose tight : Nat} (le : loose ≤ tight) (tokens : List Token) :
    (expression eof loose tokens).result =
      (expression eof tight tokens).result.bind fun left rest =>
        (continued eof loose left rest).result := by
  rw [result_expression, result_expression, Parsed.bind_assoc]
  congr
  funext left rest
  exact continued_split eof le left rest

/-- Powers between which there is no operator read alike. -/
lemma expression_congr {loose tight : Nat} (le : loose ≤ tight)
    (none : ∀ c : Continuation, c.leftPower < tight → c.leftPower < loose) (tokens : List Token) :
    (expression eof loose tokens).result = (expression eof tight tokens).result := by
  rw [expression_split eof le]
  apply bind_continued
  have left := expression_leaves eof tight tokens
  cases read : (expression eof tight tokens).result with
  | failed error rest errors => trivial
  | done value rest errors =>
    rw [read] at left
    cases rest with
    | nil => trivial
    | cons token rest => exact fun c found => none c (left c found)

/-- What an assignment makes of its two sides leaves what its value leaves. -/
lemma assigned_leaves (token : Token) (left value : Expr) {rest : List Token}
    {Q : List Token → Prop} (h : Q rest) :
    Parsed.Leaves Q (match left with
      | .ident name => .done (.assign name value) rest []
      | left => .done left rest [⟨.invalidTarget, token⟩]) := by
  cases left <;> exact h

end Powers

section Operators

/-- A level joins operands with its operators in the grammar. -/
lemma join?_cases {level : Level} {token : Token} {join : Expr → Expr → Expr}
    (h : join? level token = some join) :
    (∃ op, Grammar.Binary level token.kind op ∧ join = .binary op token) ∨
      ∃ op, Grammar.Logical level token.kind op ∧ join = .logical op token := by
  unfold join? at h
  split at h
  case h_1 kind => cases h; exact .inr ⟨_, kind ▸ .or, rfl⟩
  case h_2 kind => cases h; exact .inr ⟨_, kind ▸ .and, rfl⟩
  case h_3 kind => cases h; exact .inl ⟨_, kind ▸ .equal, rfl⟩
  case h_4 kind => cases h; exact .inl ⟨_, kind ▸ .notEqual, rfl⟩
  case h_5 kind => cases h; exact .inl ⟨_, kind ▸ .less, rfl⟩
  case h_6 kind => cases h; exact .inl ⟨_, kind ▸ .lessEqual, rfl⟩
  case h_7 kind => cases h; exact .inl ⟨_, kind ▸ .greater, rfl⟩
  case h_8 kind => cases h; exact .inl ⟨_, kind ▸ .greaterEqual, rfl⟩
  case h_9 kind => cases h; exact .inl ⟨_, kind ▸ .add, rfl⟩
  case h_10 kind => cases h; exact .inl ⟨_, kind ▸ .subtract, rfl⟩
  case h_11 kind => cases h; exact .inl ⟨_, kind ▸ .multiply, rfl⟩
  case h_12 kind => cases h; exact .inl ⟨_, kind ▸ .divide, rfl⟩
  case h_13 => exact nomatch h

/-- The operators of the grammar that evaluate both sides join the operands of their levels. -/
lemma join?_binary {level : Level} {token : Token} {op : BinaryOp}
    (h : Grammar.Binary level token.kind op) : join? level token = some (.binary op token) := by
  unfold join?
  generalize token.kind = kind at h
  cases h <;> rfl

/-- The operators of the grammar that may leave their right side alone join the operands of their
levels. -/
lemma join?_logical {level : Level} {token : Token} {op : LogicalOp}
    (h : Grammar.Logical level token.kind op) : join? level token = some (.logical op token) := by
  unfold join?
  generalize token.kind = kind at h
  cases h <;> rfl

/-- A level joins operands as an operator of its power does. -/
lemma extended_join {level : Level} {token : Token} {join : Expr → Expr → Expr}
    (h : join? level token = some join) (left : Expr) (rest : List Token) :
    ∃ c, Continuation.ofKind? token.kind = some c ∧ c.leftPower = level.power ∧
      (extended eof left token c rest).result =
        (expression eof (level.power + 1) rest).result.map (join left) := by
  rcases join?_cases h with ⟨op, isBinary, rfl⟩ | ⟨op, isLogical, rfl⟩
  · obtain ⟨found, power⟩ := isBinary.continuation
    refine ⟨.binary op, found, power, ?_⟩
    rw [result_extended_binary, power]
  · obtain ⟨found, power⟩ := isLogical.continuation
    refine ⟨.logical op, found, power, ?_⟩
    rw [result_extended_logical, power]

/-- What holds an operand as tightly as a level, and no more tightly, is of the level. -/
lemma eq_of_power_lt_tighter {level level' : Level} (le : level.power ≤ level'.power)
    (lt : level'.power < level.tighter.power) : level' = level := by
  rcases Nat.lt_or_eq_of_le le with less | same
  · exact absurd (Level.power_tighter_le less) (Nat.not_le.mpr lt)
  · exact (Level.eq_of_power_eq same).symm

/-- Tokens that a level does not join with hold less tightly than the level if they hold less
tightly than what is tighter. -/
lemma stops_of_join?_eq_none {level : Level} (low : 2 < height level) (high : height level < 9)
    {token : Token} {rest : List Token} (stops : Stops level.tighter.power (token :: rest))
    (none : join? level token = none) : Stops level.power (token :: rest) := by
  intro c found
  have lt := stops c found
  by_contra ge
  have le := Nat.not_lt.mp ge
  have shape := Grammar.continuation_cases found
  cases c with
  | call => cases level <;> revert lt low high <;> decide
  | assign => cases level <;> revert le low high <;> decide
  | binary op =>
    obtain ⟨level', isBinary⟩ := shape
    have power : (Continuation.binary op).leftPower = level'.power := isBinary.continuation.2
    obtain rfl := eq_of_power_lt_tighter (power ▸ le) (power ▸ lt)
    rw [join?_binary isBinary] at none
    exact nomatch none
  | logical op =>
    obtain ⟨level', isLogical⟩ := shape
    have power : (Continuation.logical op).leftPower = level'.power := isLogical.continuation.2
    obtain rfl := eq_of_power_lt_tighter (power ▸ le) (power ▸ lt)
    rw [join?_logical isLogical] at none
    exact nomatch none

/-- Powers on the left are odd, except that of assignments. -/
lemma leftPower_odd (c : Continuation) : c.leftPower % 2 = 1 ∨ c.leftPower = 2 := by
  cases c with
  | call => exact .inl rfl
  | assign => exact .inr rfl
  | binary op => cases op <;> exact .inl rfl
  | logical op => cases op <;> exact .inl rfl

/-- No operator is between a level and the next tighter one. -/
lemma leftPower_lt_of_lt_tighter {level : Level} (low : 2 < height level) (high : height level < 9)
    (c : Continuation) (lt : c.leftPower < level.tighter.power) :
    c.leftPower < level.power + 1 := by
  have odd := leftPower_odd c
  have gap : level.tighter.power = level.power + 2 ∧ level.power % 2 = 1 ∧ 2 < level.power := by
    cases level <;> revert low high <;> decide
  omega

end Operators

/-- Lists on which levels and powers agree. -/
def Agrees (tokens : List Token) : Prop :=
  ∀ level : Level, level.power ≤ 15 →
    (expression eof level.power tokens).result = (layer eof level tokens).result

variable {eof} {n : Nat} (shorter : ∀ tokens : List Token, tokens.length < n → Agrees eof tokens)

include shorter

section Calls

/-- Nothing has less power than an assignment. -/
lemma expression_zero {tokens : List Token} (less : tokens.length < n) :
    (expression eof 0 tokens).result = (layer eof .assignment tokens).result := by
  apply (expression_congr eof (Nat.zero_le 1) _ tokens).trans
  · exact shorter tokens less .assignment (by decide)
  · intro c lt
    have odd := leftPower_odd c
    omega

/-- Arguments are read alike if expressions in fewer tokens are. -/
lemma arguments_eq (count : Nat) {tokens : List Token} (less : tokens.length < n) :
    (Parse.arguments eof count tokens).result = (Descent.arguments eof count tokens).result := by
  rw [Parse.result_arguments, result_arguments, expression_zero shorter less]
  congr 1
  apply Bounded.bind_congr (Parsed.leaves_any _)
  intro argument rest left _
  cases rest with
  | nil => rfl
  | cons token rest =>
    dsimp only
    rw [arguments_eq (count + 1) (Nat.lt_trans (Nat.lt_of_succ_lt left) less)]
termination_by tokens.length
decreasing_by exact Nat.lt_of_succ_lt left

/-- A call is read alike. -/
lemma supplied_eq (callee : Expr) (token : Token) {tokens : List Token} (less : tokens.length < n) :
    (extended eof callee token .call tokens).result = (supplied eof callee tokens).result := by
  rw [result_extended_call, result_supplied, arguments_eq shorter 0 less]

/-- Only calls hold their operand as tightly as unary expressions. -/
lemma called_eq (callee : Expr) {tokens : List Token} (le : tokens.length ≤ n) :
    (continued eof 15 callee tokens).result = (called eof callee tokens).result := by
  cases tokens with
  | nil => rw [result_continued_nil, result_called_nil]
  | cons token rest =>
    rw [result_called_cons]
    split
    next kind =>
      have found : Continuation.ofKind? token.kind = some .call := by rw [kind]; rfl
      rw [continued_of_le eof found (by decide), supplied_eq shorter callee token le]
      apply Bounded.bind_congr (Parsed.leaves_any _)
      intro callee rest' left _
      exact called_eq callee (Nat.le_of_lt (Nat.lt_trans left le))
    next kind =>
      apply continued_of_stops
      intro c found
      have shape := Grammar.continuation_cases found
      cases c with
      | call => exact absurd shape kind
      | assign => decide
      | binary op => cases op <;> decide
      | logical op => cases op <;> decide
termination_by tokens.length
decreasing_by
  subst_vars
  exact Nat.lt_succ_of_lt left

end Calls

section Levels

/-- An operand without a prefix operator is a primary expression. -/
lemma operand_eq {token : Token} {rest : List Token} (less : rest.length < n)
    (plain : ∀ op, ¬ Grammar.Unary token.kind op) :
    (operand eof (token :: rest)).result = (layer eof .primary (token :: rest)).result := by
  rw [result_operand_cons, result_primary_cons]
  cases found : Leading.ofToken? token with
  | none =>
    dsimp only
    split
    case h_8 => rfl
    -- The other tokens begin an operand.
    all_goals simp_all [Leading.ofToken?]
  | some leading =>
    have shape := Grammar.leading_cases found
    cases leading with
    | atom atom =>
      cases shape with
      | number kind literal => rw [kind, literal]
      | string kind literal => rw [kind, literal]
      | true kind => rw [kind]
      | false kind => rw [kind]
      | nil kind => rw [kind]
    | name =>
      have kind : token.kind = .identifier := shape
      rw [kind]
    | group =>
      have kind : token.kind = .leftParen := shape
      rw [kind]
      dsimp only
      rw [expression_zero shorter less]
    | unary op => exact absurd shape (plain op)

/-- A prefix operator is read alike. -/
lemma unary_cons_eq {token : Token} {op : PrefixOp} {rest : List Token} (less : rest.length < n)
    (isUnary : Grammar.Unary token.kind op) :
    (expression eof 15 (token :: rest)).result =
      (layer eof .unary rest).result.map (.unary op token) := by
  have held := (expression_leaves eof 15 rest).map (Expr.unary op token)
  have power : op.power = 15 := by cases op <;> rfl
  have inner : (expression eof 15 rest).result = (layer eof .unary rest).result :=
    shorter rest less .unary (by decide)
  rw [result_expression, result_operand_cons, isUnary.leading]
  dsimp only
  rw [power, bind_continued eof held, inner]

/-- Expressions with operators in front are read alike if those in fewer tokens are. -/
lemma unary_eq {tokens : List Token} (le : tokens.length ≤ n) :
    (expression eof 15 tokens).result = (layer eof .unary tokens).result := by
  cases tokens with
  | nil =>
    rw [result_expression, result_operand_nil, result_unary_nil, result_call, result_primary_nil]
    rfl
  | cons token rest =>
    rw [result_unary_cons]
    split
    next kind => exact unary_cons_eq shorter le (kind ▸ .not)
    next kind => exact unary_cons_eq shorter le (kind ▸ .negate)
    next notNot notNegate =>
      have plain : ∀ op, ¬ Grammar.Unary token.kind op := by
        intro op isUnary
        generalize token.kind = kind at isUnary notNot notNegate
        cases isUnary with
        | not => exact notNot rfl
        | negate => exact notNegate rfl
      rw [result_expression, operand_eq shorter le plain, result_call]
      apply Bounded.bind_congr (Parsed.leaves_any _)
      intro callee rest' left _
      exact called_eq shorter callee (Nat.le_trans (Nat.le_of_lt_succ left) (Nat.le_of_lt le))

/-- Operators of a level are folded alike. -/
lemma folded_eq {level : Level} (low : 2 < height level) (high : height level < 9) (left : Expr)
    {tokens : List Token} (less : tokens.length ≤ n)
    (stops : Stops level.tighter.power tokens) :
    (continued eof level.power left tokens).result = (folded eof level left tokens).result := by
  cases tokens with
  | nil => rw [result_continued_nil, result_folded_nil]
  | cons token rest =>
    rw [result_folded_cons]
    cases joined : join? level token with
    | none => exact continued_of_stops eof (stops_of_join?_eq_none low high stops joined) left
    | some join =>
      have tight : level.tighter.power ≤ 15 := by
        cases level <;> revert low high <;> decide
      have right : (expression eof (level.power + 1) rest).result =
          (layer eof level.tighter rest).result := by
        apply (expression_congr eof _ (leftPower_lt_of_lt_tighter low high) rest).trans
        · exact shorter rest less level.tighter tight
        · cases level <;> revert low high <;> decide
      have rights := expression_leaves eof level.tighter.power rest
      rw [shorter rest less level.tighter tight] at rights
      obtain ⟨c, found, power, read⟩ := extended_join eof joined left rest
      rw [continued_of_le eof found (Nat.le_of_eq power.symm), read, right, Parsed.map_bind]
      apply Bounded.bind_congr rights
      intro right rest' left stops
      exact folded_eq low high _ (Nat.le_of_lt (Nat.lt_trans left less)) stops
termination_by tokens.length
decreasing_by
  subst_vars
  exact Nat.lt_succ_of_lt left

/-- A level of operators between operands is read alike if the next tighter one is. -/
lemma chain_eq {level : Level} (low : 2 < height level) (high : height level < 9)
    {tokens : List Token} (le : tokens.length ≤ n)
    (tighter : (expression eof level.tighter.power tokens).result =
      (layer eof level.tighter tokens).result) :
    (expression eof level.power tokens).result = (layer eof level tokens).result := by
  have rests := expression_leaves eof level.tighter.power tokens
  rw [tighter] at rests
  rw [expression_split eof level.power_le_tighter, tighter, result_chain eof low high]
  apply Bounded.bind_congr rests
  intro left rest less stops
  exact folded_eq shorter low high left (Nat.le_trans (Nat.le_of_lt less) le) stops

/-- Behind an expression of the next level, only a `=` goes on with an assignment, and it goes on to
the end. -/
lemma assignment_eq {tokens : List Token} (le : tokens.length ≤ n)
    (or : (expression eof 3 tokens).result = (layer eof .or tokens).result) :
    (expression eof 1 tokens).result = (layer eof .assignment tokens).result := by
  have lefts := expression_leaves eof 3 tokens
  rw [or] at lefts
  rw [expression_split eof (by decide : 1 ≤ 3), or, result_assignment]
  apply Bounded.bind_congr lefts
  intro left rest less stops
  cases rest with
  | nil => exact result_continued_nil eof 1 left
  | cons token rest =>
    dsimp only
    split
    next kind =>
      have shorter := shorter rest (Nat.lt_of_lt_of_le (Nat.lt_of_succ_lt less) le)
      have value : (expression eof 1 rest).result = (layer eof .assignment rest).result :=
        shorter .assignment (by decide)
      have values := expression_leaves eof 1 rest
      rw [value] at values
      have found : Continuation.ofKind? token.kind = some .assign := by rw [kind]; rfl
      rw [continued_of_le eof found (by decide), result_extended_assign, value, Parsed.bind_assoc]
      apply Bounded.bind_congr values
      intro value rest' _ stops
      exact bind_continued eof (assigned_leaves token left value stops)
    next kind =>
      apply continued_of_stops
      intro c found
      have lt := stops c found
      have shape := Grammar.continuation_cases found
      cases c with
      | call => exact absurd lt (by decide)
      | assign => exact absurd shape kind
      | binary op => cases op <;> exact absurd lt (by decide)
      | logical op => cases op <;> exact absurd lt (by decide)

/-- If shorter lists are read alike, each level follows from the next tighter one. -/
lemma agrees_of_shorter {tokens : List Token} (le : tokens.length ≤ n) : Agrees eof tokens := by
  intro level
  have primary : Level.primary.power ≤ 15 →
      (expression eof Level.primary.power tokens).result = (layer eof .primary tokens).result :=
    fun bound => absurd bound (by decide)
  refine Level.takeOver (fun level => level.power ≤ 15 →
    (expression eof level.power tokens).result = (layer eof level tokens).result)
    ?_ primary level.power_le
  intro level tighter bound
  cases level with
  | call | primary => exact absurd bound (by decide)
  | unary => exact unary_eq shorter le
  | assignment => exact assignment_eq shorter le (tighter (by decide))
  | _ => exact chain_eq shorter (by decide) (by decide) le (tighter (by decide))

end Levels

omit shorter in
/-- All lists are read alike at each level. -/
theorem agrees (eof : Token) (tokens : List Token) : Agrees eof tokens := by
  apply agrees_of_shorter _ (Nat.le_refl tokens.length)
  intro tokens' less
  exact agrees eof tokens'
termination_by tokens.length

end Descent

/-- From every place in a list of tokens, the parser with its powers and recursive descent through
the levels of the grammar read the same expression, or fail with the same error; they leave the
same tokens, and report the same errors on the way in the same order. -/
theorem Expr.parse_eq_descend (tokens : List Token) (start : Nat) :
    Expr.parse (tokens.drop start) = Expr.descend (tokens.drop start) := by
  apply Descent.expression_zero (n := (beforeEnd (tokens.drop start)).length + 1)
  · intro ts _
    exact Descent.agrees _ ts
  · exact Nat.lt_succ_self _

end Lox
