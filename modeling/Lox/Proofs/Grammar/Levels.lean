import Lox.Proofs.Grammar.Basic
import Lox.Proofs.Syntax.Rules

/-!
# Levels and powers

The levels of the grammar are powers of operators: an expression of a level is held together by
operators with at least the power of the level, and a token ends it if what the token goes on with
has less power. The tables of the parser list the operators of the grammar and no others.
-/

namespace Lox

open Parse

namespace Grammar

/-- How tightly the operators of a level hold their left operands. -/
def Level.power : Level → Nat
  | assignment => 1
  | or => 3
  | and => 5
  | equality => 7
  | comparison => 9
  | term => 11
  | factor => 13
  | unary => 15
  | call => 17
  | primary => 18

/-- A level with a greater power is at least as tight as the next one. -/
lemma Level.power_tighter_le {level level' : Level} (lt : level.power < level'.power) :
    level.tighter.power ≤ level'.power := by
  cases level <;> cases level' <;> first | decide | exact absurd lt (by decide)

/-- Levels are told apart by their powers. -/
lemma Level.eq_of_power_eq {level level' : Level} (eq : level.power = level'.power) :
    level = level' := by
  cases level <;> cases level' <;> first | rfl | exact absurd eq (by decide)

/-- No level has a power above that of primary expressions. -/
lemma Level.power_le (level : Level) : level.power ≤ 18 := by
  cases level <;> decide

/-- The next level is no looser. -/
lemma Level.power_le_tighter (level : Level) : level.power ≤ level.tighter.power := by
  cases level <;> decide

/-- What a level takes over from the next tighter one, it takes over from all tighter ones. -/
lemma Level.takeOver (P : Level → Prop) (step : ∀ level : Level, P level.tighter → P level)
    {level level' : Level} (h : P level) (le : level'.power ≤ level.power) : P level' := by
  induction size : 18 - level'.power using Nat.strongRecOn generalizing level' with
  | ind n ih =>
    rcases Nat.lt_or_eq_of_le le with lt | eq
    · have next := Level.power_tighter_le lt
      have bound := level.power_le
      have grows : level'.power < level'.tighter.power := by
        cases level' with
        | primary => exact absurd lt (Nat.not_lt.mpr bound)
        | _ => decide
      exact step _ (ih (18 - level'.tighter.power) (by omega) next rfl)
    · obtain rfl := Level.eq_of_power_eq eq
      exact h

/-- An expression is one of every looser level. -/
lemma Expression.loosen {level level' : Level} {ts : List Token} {e : Expr}
    (h : Expression level ts e) (le : level'.power ≤ level.power) : Expression level' ts e :=
  Level.takeOver (Expression · ts e) (fun _ => .tighter) h le

/-- A literal begins an operand. -/
lemma Literal.leading {token : Token} {atom : Atom} (h : Literal token atom) :
    Leading.ofToken? token = some (.atom atom) := by
  cases h with
  | number kind literal => rw [Leading.ofToken?, kind, literal]
  | string kind literal => rw [Leading.ofToken?, kind, literal]
  | true kind => rw [Leading.ofToken?, kind]
  | false kind => rw [Leading.ofToken?, kind]
  | nil kind => rw [Leading.ofToken?, kind]

/-- An identifier begins a name. -/
lemma leading_name {token : Token} (kind : token.kind = .identifier) :
    Leading.ofToken? token = some .name := by
  rw [Leading.ofToken?, kind]

/-- A parenthesis begins a group. -/
lemma leading_group {token : Token} (kind : token.kind = .leftParen) :
    Leading.ofToken? token = some .group := by
  rw [Leading.ofToken?, kind]

/-- The operators of unary expressions begin them. -/
lemma Unary.leading {token : Token} {op : PrefixOp} (h : Unary token.kind op) :
    Leading.ofToken? token = some (.unary op) := by
  generalize kind : token.kind = k at h
  cases h with
  | not =>
    rw [Leading.ofToken?, kind]
    rfl
  | negate =>
    rw [Leading.ofToken?, kind]
    rfl

/-- Operands begin with the tokens with which the grammar begins them. -/
lemma leading_cases {token : Token} {leading : Leading}
    (h : Leading.ofToken? token = some leading) :
    match leading with
    | .atom atom => Literal token atom
    | .name => token.kind = .identifier
    | .group => token.kind = .leftParen
    | .unary op => Unary token.kind op := by
  unfold Leading.ofToken? at h
  split at h
  case h_1 kind literal =>
    cases h
    exact .number kind literal
  case h_2 kind literal =>
    cases h
    exact .string kind literal
  case h_3 kind =>
    cases h
    exact .true kind
  case h_4 kind =>
    cases h
    exact .false kind
  case h_5 kind =>
    cases h
    exact .nil kind
  case h_6 kind =>
    cases h
    exact kind
  case h_7 kind =>
    cases h
    exact kind
  case h_8 =>
    obtain ⟨op, found, rfl⟩ := Option.map_eq_some_iff.mp h
    change Unary token.kind op
    generalize token.kind = kind at found
    cases kind with
    | bang =>
      cases found
      exact .not
    | minus =>
      cases found
      exact .negate
    | _ => exact nomatch found

/-- An operator of a level goes on with an expression of that level. -/
lemma Binary.continuation {level : Level} {kind : Kind} {op : BinaryOp} (h : Binary level kind op) :
    Continuation.ofKind? kind = some (.binary op) ∧ op.leftPower = level.power := by
  cases h <;> exact ⟨rfl, rfl⟩

/-- The operators that may leave their right side alone hold operands with the power of their level.
-/
lemma Logical.continuation {level : Level} {kind : Kind} {op : LogicalOp}
    (h : Logical level kind op) :
    Continuation.ofKind? kind = some (.logical op) ∧ op.leftPower = level.power := by
  cases h <;> exact ⟨rfl, rfl⟩

/-- There is a level next to one with binary operators. -/
lemma Binary.power_lt {level : Level} {kind : Kind} {op : BinaryOp} (h : Binary level kind op) :
    level.power < level.tighter.power := by
  cases h <;> decide

/-- A level with operators that may leave their right side alone is looser than the next one. -/
lemma Logical.power_lt {level : Level} {kind : Kind} {op : LogicalOp} (h : Logical level kind op) :
    level.power < level.tighter.power := by
  cases h <;> decide

/-- Expressions go on with the tokens with which the grammar goes on. -/
lemma continuation_cases {kind : Kind} {c : Continuation} (h : Continuation.ofKind? kind = some c) :
    match c with
    | .call => kind = .leftParen
    | .assign => kind = .equal
    | .binary op => ∃ level, Binary level kind op
    | .logical op => ∃ level, Logical level kind op := by
  cases kind with
  | leftParen => cases h; rfl
  | equal => cases h; rfl
  | equalEqual => cases h; exact ⟨_, .equal⟩
  | bangEqual => cases h; exact ⟨_, .notEqual⟩
  | less => cases h; exact ⟨_, .less⟩
  | lessEqual => cases h; exact ⟨_, .lessEqual⟩
  | greater => cases h; exact ⟨_, .greater⟩
  | greaterEqual => cases h; exact ⟨_, .greaterEqual⟩
  | plus => cases h; exact ⟨_, .add⟩
  | minus => cases h; exact ⟨_, .subtract⟩
  | star => cases h; exact ⟨_, .multiply⟩
  | slash => cases h; exact ⟨_, .divide⟩
  | kwOr => cases h; exact ⟨_, .or⟩
  | kwAnd => cases h; exact ⟨_, .and⟩
  | _ => exact nomatch h

/-- Nothing in front of the tokens holds an operand before it with `power` or more. -/
def Stops (power : Nat) : List Token → Prop
  | [] => True
  | token :: _ => ∀ c, Continuation.ofKind? token.kind = some c → c.leftPower < power

/-- What stops at some power stops at every greater one. -/
lemma Stops.weaken {power power' : Nat} {tokens : List Token} (h : Stops power tokens)
    (le : power ≤ power') : Stops power' tokens := by
  cases tokens with
  | nil => trivial
  | cons token rest =>
    intro c found
    exact Nat.lt_of_lt_of_le (h c found) le

/-- Nothing holds an operand more tightly than a call. -/
lemma Stops.call (tokens : List Token) : Stops 18 tokens := by
  cases tokens with
  | nil => trivial
  | cons token rest =>
    intro c _
    cases c with
    | call => decide
    | assign => decide
    | binary op => cases op <;> decide
    | logical op => cases op <;> decide

/-- No operator has the power of unary expressions. -/
lemma Stops.unary {tokens : List Token} (h : Stops 16 tokens) : Stops 15 tokens := by
  cases tokens with
  | nil => trivial
  | cons token rest =>
    intro c found
    have lt := h c found
    cases c with
    | call => exact absurd lt (by decide)
    | assign => decide
    | binary op => cases op <;> decide
    | logical op => cases op <;> decide

/-- No operator has the power of assignments on its left side. -/
lemma Stops.assignment {tokens : List Token} (h : Stops 2 tokens) : Stops 1 tokens := by
  cases tokens with
  | nil => trivial
  | cons token rest =>
    intro c found
    have lt := h c found
    cases c with
    | call => exact absurd lt (by decide)
    | assign => exact absurd lt (by decide)
    | binary op => cases op <;> exact absurd lt (by decide)
    | logical op => cases op <;> exact absurd lt (by decide)

/-- A token stops what holds its operand more tightly. -/
lemma Stops.of_some {power : Nat} {token : Token} {c : Continuation}
    (found : Continuation.ofKind? token.kind = some c) (lt : c.leftPower < power)
    (rest : List Token) : Stops power (token :: rest) := by
  intro c' found'
  rw [found] at found'
  cases found'
  exact lt

/-- A token that nothing goes on with stops everything. -/
lemma Stops.of_none {token : Token} (h : Continuation.ofKind? token.kind = none) (power : Nat)
    (rest : List Token) : Stops power (token :: rest) := by
  intro c found
  rw [h] at found
  exact nomatch found

/-- An expression ends where nothing goes on with it. -/
lemma continued_of_stops (eof : Token) {power : Nat} {tokens : List Token} (h : Stops power tokens)
    (left : Expr) : (continued eof power left tokens).result = .done left tokens [] := by
  cases tokens with
  | nil => exact result_continued_nil eof power left
  | cons token rest =>
    rw [result_continued_cons]
    cases found : Continuation.ofKind? token.kind with
    | none => rfl
    | some c =>
      dsimp only
      rw [if_pos (h c found)]

/-- An expression goes on where something holds it tightly enough. -/
lemma continued_of_le (eof : Token) {power : Nat} {token : Token} {c : Continuation}
    (found : Continuation.ofKind? token.kind = some c) (le : power ≤ c.leftPower) (left : Expr)
    (rest : List Token) :
    (continued eof power left (token :: rest)).result =
      (extended eof left token c rest).result.bind fun left rest =>
        (continued eof power left rest).result := by
  rw [result_continued_cons, found]
  dsimp only
  rw [if_neg (Nat.not_lt.mpr le)]

end Grammar

end Lox
