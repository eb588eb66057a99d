import Lox.Syntax.Parsed
import Lox.Syntax.Tree

/-!
# Parsing expressions

An expression is an operand and what follows it, as far as that holds the operand at least as
tightly as the operator before it does. The target of an assignment is looked at only after the
value has been read; any other left side is reported and stands for the whole.
-/

namespace Lox

/-- What a token can begin an operand with. -/
inductive Leading where
  | atom (atom : Atom)
  | name
  | group
  | unary (op : PrefixOp)
deriving DecidableEq

/-- How a token begins an operand. Number and string tokens need a value of their own type. -/
def Leading.ofToken? (token : Token) : Option Leading :=
  match token.kind, token.literal with
  | .number, some (.number x) => some (.atom (.number x))
  | .string, some (.string s) => some (.atom (.string s))
  | .kwTrue, _ => some (.atom (.boolean true))
  | .kwFalse, _ => some (.atom (.boolean false))
  | .kwNil, _ => some (.atom .nil)
  | .identifier, _ => some .name
  | .leftParen, _ => some .group
  | kind, _ => (PrefixOp.ofKind? kind).map .unary

namespace Parse

/-- The token in front, which is the end mark when all have been read. -/
def front (eof : Token) (tokens : List Token) : Token :=
  tokens.headD eof

/-- Objects to the token in front. -/
def reject {α : Type} (eof : Token) (cause : SyntaxCause) (tokens : List Token) :
    Bounded α tokens.length :=
  .failed ⟨cause, front eof tokens⟩ tokens (Nat.le_refl _)

/-- Takes the token that fills a place. -/
def expect (eof : Token) (place : Expectation) (tokens : List Token) :
    Bounded Token tokens.length :=
  match tokens with
  | [] => reject eof (.expected place) []
  | token :: rest =>
    if token.kind = place.kind then .one token token rest
    else reject eof (.expected place) (token :: rest)

/-- Assigns to the left side of a `=`, which has to be a variable. -/
def assign {n : Nat} (token : Token) (left value : Expr) (rest : List Token) (h : rest.length < n) :
    Bounded Expr n :=
  match left with
  | .ident name => .done (.assign name value) rest h
  | left => (Bounded.done left rest h).after [⟨.invalidTarget, token⟩]

mutual

/-- Reads an expression whose operators hold their left operand with at least `power`. -/
def expression (eof : Token) (power : Nat) (tokens : List Token) : Bounded Expr tokens.length :=
  (operand eof tokens).andThen fun left rest h =>
    (continued eof power left rest).widen h
termination_by 6 * tokens.length + 3

/-- Reads a literal, a name, a group, or a prefix operator with its operand. -/
def operand (eof : Token) (tokens : List Token) : Bounded Expr tokens.length :=
  match tokens with
  | [] => reject eof .noExpression []
  | token :: rest =>
    match Leading.ofToken? token with
    | none => reject eof .noExpression (token :: rest)
    | some (.atom atom) => .one (.literal atom) token rest
    | some .name => .one (.ident token) token rest
    | some (.unary op) => ((expression eof op.power rest).map (.unary op token)).behind token
    | some .group =>
      ((expression eof 0 rest).andRead fun inner rest _ =>
        (expect eof .groupEnd rest).map fun _ => .group inner).behind token
termination_by 6 * tokens.length + 2

/-- Goes on behind an operand while what follows holds it with at least `power`. -/
def continued (eof : Token) (power : Nat) (left : Expr) (tokens : List Token) :
    Bounded Expr (tokens.length + 1) :=
  match tokens with
  | [] => .done left [] (Nat.lt_succ_self _)
  | token :: rest =>
    match Continuation.ofKind? token.kind with
    | none => .done left (token :: rest) (Nat.lt_succ_self _)
    | some c =>
      if c.leftPower < power then .done left (token :: rest) (Nat.lt_succ_self _)
      else
        ((extended eof left token c rest).andThen fun left rest' h =>
          (continued eof power left rest').widen h).widen (by simp only [List.length_cons]; omega)
termination_by 6 * tokens.length

/-- Makes an operand part of a larger expression. -/
def extended (eof : Token) (left : Expr) (token : Token) (c : Continuation) (tokens : List Token) :
    Bounded Expr tokens.length :=
  match c with
  | .call =>
    if (front eof tokens).kind = .rightParen then
      (expect eof .argumentsEnd tokens).map fun paren => .call left paren []
    else
      (arguments eof 0 tokens).andRead fun arguments rest _ =>
        (expect eof .argumentsEnd rest).map fun paren => .call left paren arguments
  | .binary op => (expression eof c.rightPower tokens).map (.binary op token left)
  | .logical op => (expression eof c.rightPower tokens).map (.logical op token left)
  | .assign =>
    (expression eof c.rightPower tokens).andThen fun value rest h => assign token left value rest h
termination_by 6 * tokens.length + 5

/-- Reads arguments separated by commas, of which there have been `count` already. -/
def arguments (eof : Token) (count : Nat) (tokens : List Token) :
    Bounded (List Expr) tokens.length :=
  ((expression eof 0 tokens).andThen fun argument rest h =>
    match rest, h with
    | [], h => .done [argument] [] h
    | token :: rest, h =>
      if token.kind = .comma then
        have shorter : rest.length < tokens.length := Nat.lt_of_succ_lt h
        ((arguments eof (count + 1) rest).map (argument :: ·)).widen (Nat.le_of_lt shorter)
      else .done [argument] (token :: rest) h).after
    (if argumentLimit ≤ count then [⟨.tooManyArguments, front eof tokens⟩] else [])
termination_by 6 * tokens.length + 4

end

end Parse

end Lox
