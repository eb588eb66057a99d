import Lox.Proofs.Grammar.Levels
import Lox.Proofs.Syntax.Rules

/-!
# Recursive descent

Expressions read level by level, each rule by what the grammar says of its level: operators are
listed where they stand in the grammar and have no powers, a level begins with an expression of the
next tighter one, and a loop folds the chains of a level to the left. The rules take tokens and
report errors as those of the parser do.
-/

namespace Lox

open Grammar (Level)

namespace Descent

/-- What the operators of each level make of the operands on their two sides. -/
def join? (level : Level) (token : Token) : Option (Expr → Expr → Expr) :=
  match level, token.kind with
  | .or, .kwOr => some (.logical .or token)
  | .and, .kwAnd => some (.logical .and token)
  | .equality, .equalEqual => some (.binary .equal token)
  | .equality, .bangEqual => some (.binary .notEqual token)
  | .comparison, .less => some (.binary .less token)
  | .comparison, .lessEqual => some (.binary .lessEqual token)
  | .comparison, .greater => some (.binary .greater token)
  | .comparison, .greaterEqual => some (.binary .greaterEqual token)
  | .term, .plus => some (.binary .add token)
  | .term, .minus => some (.binary .subtract token)
  | .factor, .star => some (.binary .multiply token)
  | .factor, .slash => some (.binary .divide token)
  | _, _ => none

/-- How many levels are tighter. -/
def height : Level → Nat
  | .assignment => 9
  | .or => 8
  | .and => 7
  | .equality => 6
  | .comparison => 5
  | .term => 4
  | .factor => 3
  | .unary => 2
  | .call => 1
  | .primary => 0

/-- No level has more than nine tighter ones. -/
lemma height_le (level : Level) : height level ≤ 9 := by
  cases level <;> decide

/-- What is left behind a token fits where the token stands, with room to spare. -/
lemma length_le_behind (token : Token) (rest : List Token) :
    rest.length ≤ (token :: rest).length + 1 :=
  Nat.le_succ_of_le (Nat.le_succ rest.length)

mutual

/-- Reads an expression of a level. -/
def layer (eof : Token) (level : Level) (tokens : List Token) : Bounded Expr tokens.length :=
  match level with
  | .assignment =>
    (layer eof .or tokens).andThen fun left rest h =>
      match rest, h with
      | [], h => .done left [] h
      | token :: rest, h =>
        if token.kind = .equal then
          have shorter : rest.length < tokens.length := Nat.lt_of_succ_lt h
          ((layer eof .assignment rest).andThen fun value rest h =>
            Parse.assign token left value rest h).widen (Nat.le_of_lt shorter)
        else .done left (token :: rest) h
  | .or => (layer eof .and tokens).andThen fun left rest h =>
      (folded eof .or left rest).widen h
  | .and => (layer eof .equality tokens).andThen fun left rest h =>
      (folded eof .and left rest).widen h
  | .equality =>
    (layer eof .comparison tokens).andThen fun left rest h =>
      (folded eof .equality left rest).widen h
  | .comparison =>
    (layer eof .term tokens).andThen fun left rest h =>
      (folded eof .comparison left rest).widen h
  | .term => (layer eof .factor tokens).andThen fun left rest h =>
      (folded eof .term left rest).widen h
  | .factor => (layer eof .unary tokens).andThen fun left rest h =>
      (folded eof .factor left rest).widen h
  | .unary =>
    match tokens with
    | [] => layer eof .call []
    | token :: rest =>
      match token.kind with
      | .bang => ((layer eof .unary rest).map (.unary .not token)).behind token
      | .minus => ((layer eof .unary rest).map (.unary .negate token)).behind token
      | _ => layer eof .call (token :: rest)
  | .call => (layer eof .primary tokens).andThen fun callee rest h =>
      (called eof callee rest).widen h
  | .primary =>
    match tokens with
    | [] => Parse.reject eof .noExpression []
    | token :: rest =>
      match token.kind, token.literal with
      | .number, some (.number x) => .one (.literal (.number x)) token rest
      | .string, some (.string s) => .one (.literal (.string s)) token rest
      | .kwTrue, _ => .one (.literal (.boolean true)) token rest
      | .kwFalse, _ => .one (.literal (.boolean false)) token rest
      | .kwNil, _ => .one (.literal .nil) token rest
      | .identifier, _ => .one (.ident token) token rest
      | .leftParen, _ =>
        ((layer eof .assignment rest).andRead fun inner rest _ =>
          (Parse.expect eof .groupEnd rest).map fun _ => .group inner).behind token
      | _, _ => Parse.reject eof .noExpression (token :: rest)
termination_by 12 * tokens.length + height level
decreasing_by all_goals simp only [height, List.length_cons, List.length_nil] at *; omega

/-- Folds what follows an expression of a level to the left, as long as its operators follow. -/
def folded (eof : Token) (level : Level) (left : Expr) (tokens : List Token) :
    Bounded Expr (tokens.length + 1) :=
  match tokens with
  | [] => .done left [] (Nat.lt_succ_self _)
  | token :: rest =>
    match join? level token with
    | none => .done left (token :: rest) (Nat.lt_succ_self _)
    | some join =>
      ((layer eof level.tighter rest).andThen fun right rest h =>
        (folded eof level (join left right) rest).widen h).widen (length_le_behind token rest)
termination_by 12 * tokens.length
decreasing_by all_goals have := height_le level.tighter; simp only [List.length_cons]; omega

/-- Applies a callee to the lists of arguments that follow it. -/
def called (eof : Token) (callee : Expr) (tokens : List Token) :
    Bounded Expr (tokens.length + 1) :=
  match tokens with
  | [] => .done callee [] (Nat.lt_succ_self _)
  | token :: rest =>
    if token.kind = .leftParen then
      ((supplied eof callee rest).andThen fun callee rest h =>
        (called eof callee rest).widen h).widen (length_le_behind token rest)
    else .done callee (token :: rest) (Nat.lt_succ_self _)
termination_by 12 * tokens.length

/-- Applies a callee to a list of arguments, which may be empty and ends with a parenthesis. -/
def supplied (eof : Token) (callee : Expr) (tokens : List Token) : Bounded Expr tokens.length :=
  if (Parse.front eof tokens).kind = .rightParen then
    (Parse.expect eof .argumentsEnd tokens).map fun paren => .call callee paren []
  else
    (arguments eof 0 tokens).andRead fun arguments rest _ =>
      (Parse.expect eof .argumentsEnd rest).map fun paren => .call callee paren arguments
termination_by 12 * tokens.length + 11

/-- Reads arguments separated by commas, of which there have been `count` already. -/
def arguments (eof : Token) (count : Nat) (tokens : List Token) :
    Bounded (List Expr) tokens.length :=
  ((layer eof .assignment tokens).andThen fun argument rest h =>
    match rest, h with
    | [], h => .done [argument] [] h
    | token :: rest, h =>
      if token.kind = .comma then
        have shorter : rest.length < tokens.length := Nat.lt_of_succ_lt h
        ((arguments eof (count + 1) rest).map (argument :: ·)).widen (Nat.le_of_lt shorter)
      else .done [argument] (token :: rest) h).after
    (if argumentLimit ≤ count then [⟨.tooManyArguments, Parse.front eof tokens⟩] else [])
termination_by 12 * tokens.length + 10
decreasing_by all_goals simp only [height, List.length_cons] at *; omega

end

variable (eof : Token)

/-- Whether a left side is a variable is looked at once the value has been read. -/
lemma result_assignment (tokens : List Token) :
    (layer eof .assignment tokens).result =
      (layer eof .or tokens).result.bind fun left rest =>
        match rest with
        | [] => .done left [] []
        | token :: rest =>
          if token.kind = .equal then
            (layer eof .assignment rest).result.bind fun value rest =>
              match left with
              | .ident name => .done (.assign name value) rest []
              | left => .done left rest [⟨.invalidTarget, token⟩]
          else .done left (token :: rest) [] := by
  rw [layer]
  refine Bounded.result_andThen fun left rest h => ?_
  cases rest with
  | nil => rfl
  | cons token rest =>
    dsimp only
    split
    · apply (Bounded.result_widen _ _).trans
      exact Bounded.result_andThen fun _ _ _ => Parse.result_assign _ _ _ _ _
    · rfl

/-- Between assignments and unary expressions, a level folds what is tighter. -/
lemma result_chain {level : Level} (low : 2 < height level) (high : height level < 9)
    (tokens : List Token) :
    (layer eof level tokens).result =
      (layer eof level.tighter tokens).result.bind fun left rest =>
        (folded eof level left rest).result := by
  cases level with
  | assignment => exact absurd high (by decide)
  | unary | call | primary => exact absurd low (by decide)
  | or | and | equality | comparison | term | factor =>
    rw [layer]
    exact Bounded.result_andThen fun _ _ _ => rfl

/-- Where no tokens are left, there is no operator in front. -/
lemma result_unary_nil : (layer eof .unary []).result = (layer eof .call []).result := by
  rw [layer]

/-- An operator in front is one for the expression behind it; otherwise a call is read. -/
lemma result_unary_cons (token : Token) (rest : List Token) :
    (layer eof .unary (token :: rest)).result =
      match token.kind with
      | .bang => (layer eof .unary rest).result.map (.unary .not token)
      | .minus => (layer eof .unary rest).result.map (.unary .negate token)
      | _ => (layer eof .call (token :: rest)).result := by
  rw [layer]
  cases token.kind with
  | bang | minus => exact (Bounded.result_behind _ _).trans (Bounded.result_map _ _)
  | _ => rfl

/-- A call begins with a primary expression and goes on behind it. -/
lemma result_call (tokens : List Token) :
    (layer eof .call tokens).result =
      (layer eof .primary tokens).result.bind fun callee rest =>
        (called eof callee rest).result := by
  rw [layer]
  exact Bounded.result_andThen fun _ _ _ => rfl

/-- Where no tokens are left, there is no expression. -/
lemma result_primary_nil :
    (layer eof .primary []).result = .failed ⟨.noExpression, eof⟩ [] [] := by
  rw [layer]
  rfl

/-- A primary expression is a literal, a name or an expression between parentheses. -/
lemma result_primary_cons (token : Token) (rest : List Token) :
    (layer eof .primary (token :: rest)).result =
      match token.kind, token.literal with
      | .number, some (.number x) => .done (.literal (.number x)) rest []
      | .string, some (.string s) => .done (.literal (.string s)) rest []
      | .kwTrue, _ => .done (.literal (.boolean true)) rest []
      | .kwFalse, _ => .done (.literal (.boolean false)) rest []
      | .kwNil, _ => .done (.literal .nil) rest []
      | .identifier, _ => .done (.ident token) rest []
      | .leftParen, _ =>
        (layer eof .assignment rest).result.bind fun inner rest =>
          (Parse.expect eof .groupEnd rest).result.map fun _ => .group inner
      | _, _ => .failed ⟨.noExpression, token⟩ (token :: rest) [] := by
  conv_lhs => rw [layer]
  split
  case h_7 =>
    refine (Bounded.result_behind _ _).trans (Bounded.result_andRead fun inner rest _ => ?_)
    exact Bounded.result_map _ _
  all_goals rfl

/-- A chain of operators ends where no tokens are left. -/
lemma result_folded_nil (level : Level) (left : Expr) :
    (folded eof level left []).result = .done left [] [] := by
  rw [folded]
  rfl

/-- Operators of the level are folded, and other tokens end it. -/
lemma result_folded_cons (level : Level) (left : Expr) (token : Token) (rest : List Token) :
    (folded eof level left (token :: rest)).result =
      match join? level token with
      | none => .done left (token :: rest) []
      | some join =>
        (layer eof level.tighter rest).result.bind fun right rest =>
          (folded eof level (join left right) rest).result := by
  rw [folded]
  cases join? level token with
  | none => rfl
  | some join => exact (Bounded.result_widen _ _).trans (Bounded.result_andThen fun _ _ _ => rfl)

/-- Calls end where no tokens are left. -/
lemma result_called_nil (callee : Expr) : (called eof callee []).result = .done callee [] [] := by
  rw [called]
  rfl

/-- Calls go on as long as there is a parenthesis in front. -/
lemma result_called_cons (callee : Expr) (token : Token) (rest : List Token) :
    (called eof callee (token :: rest)).result =
      if token.kind = .leftParen then
        (supplied eof callee rest).result.bind fun callee rest => (called eof callee rest).result
      else .done callee (token :: rest) [] := by
  rw [called]
  split
  · exact (Bounded.result_widen _ _).trans (Bounded.result_andThen fun _ _ _ => rfl)
  · rfl

/-- The arguments of a call end with a parenthesis, and there may be none. -/
lemma result_supplied (callee : Expr) (tokens : List Token) :
    (supplied eof callee tokens).result =
      if (Parse.front eof tokens).kind = .rightParen then
        (Parse.expect eof .argumentsEnd tokens).result.map fun paren => .call callee paren []
      else
        (arguments eof 0 tokens).result.bind fun arguments rest =>
          (Parse.expect eof .argumentsEnd rest).result.map fun paren =>
            .call callee paren arguments := by
  rw [supplied]
  split
  · exact Bounded.result_map _ _
  · exact Bounded.result_andRead fun _ _ _ => Bounded.result_map _ _

/-- An argument is followed by others if a comma follows it. -/
lemma result_arguments (count : Nat) (tokens : List Token) :
    (arguments eof count tokens).result =
      ((layer eof .assignment tokens).result.bind fun argument rest =>
        match rest with
        | [] => .done [argument] [] []
        | token :: rest =>
          if token.kind = .comma then
            (arguments eof (count + 1) rest).result.map (argument :: ·)
          else .done [argument] (token :: rest) []).after
        (if argumentLimit ≤ count then [⟨.tooManyArguments, Parse.front eof tokens⟩] else []) := by
  rw [arguments, Bounded.result_after]
  congr 1
  refine Bounded.result_andThen fun argument rest h => ?_
  cases rest with
  | nil => rfl
  | cons token rest =>
    dsimp only
    split
    · exact (Bounded.result_widen _ _).trans (Bounded.result_map _ _)
    · rfl

end Descent

/-- The expression in front of a list of tokens, read by recursive descent. -/
def Expr.descend (tokens : List Token) : Parsed Expr :=
  (Descent.layer (Parse.endOf tokens) .assignment (Parse.beforeEnd tokens)).result

end Lox
