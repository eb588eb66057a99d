import Lox.Token.Kind

/-!
# Operators

The operators of expressions with their binding powers. Of two operators around an operand the one
with the greater power on that side takes it; chains of one level lean to the left, where the left
power is one less than the right power, and assignment leans to the right.
-/

namespace Lox

/-- Operators before their operand. -/
inductive PrefixOp where
  | not
  | negate
deriving DecidableEq

/-- Operators between two operands that are both evaluated. -/
inductive BinaryOp where
  | multiply | divide
  | add | subtract
  | less | lessEqual | greater | greaterEqual
  | equal | notEqual
deriving DecidableEq

/-- Operators that may leave their right operand unevaluated. -/
inductive LogicalOp where
  | and
  | or
deriving DecidableEq

/-- What can follow an operand and make it part of a larger expression. -/
inductive Continuation where
  | call
  | binary (op : BinaryOp)
  | logical (op : LogicalOp)
  | assign
deriving DecidableEq

namespace PrefixOp

/-- The prefix operator that a kind of token stands for. -/
def ofKind? : Kind → Option PrefixOp
  | .bang => some not
  | .minus => some negate
  | _ => none

/-- How tightly a prefix operator holds its operand. -/
def power : PrefixOp → Nat
  | not | negate => 15

/-- The spelling of a prefix operator. -/
def symbol : PrefixOp → String
  | not => "!"
  | negate => "-"

/-- The name of a prefix operator in record notation. -/
def recordName : PrefixOp → String
  | not => "Bang"
  | negate => "Minus"

end PrefixOp

namespace BinaryOp

/-- The binary operator that a kind of token stands for. -/
def ofKind? : Kind → Option BinaryOp
  | .star => some multiply
  | .slash => some divide
  | .plus => some add
  | .minus => some subtract
  | .less => some less
  | .lessEqual => some lessEqual
  | .greater => some greater
  | .greaterEqual => some greaterEqual
  | .equalEqual => some equal
  | .bangEqual => some notEqual
  | _ => none

/-- How tightly a binary operator holds its left operand. -/
def leftPower : BinaryOp → Nat
  | multiply | divide => 13
  | add | subtract => 11
  | less | lessEqual | greater | greaterEqual => 9
  | equal | notEqual => 7

/-- The spelling of a binary operator. -/
def symbol : BinaryOp → String
  | multiply => "*"
  | divide => "/"
  | add => "+"
  | subtract => "-"
  | less => "<"
  | lessEqual => "<="
  | greater => ">"
  | greaterEqual => ">="
  | equal => "=="
  | notEqual => "!="

/-- The name of a binary operator in record notation. -/
def recordName : BinaryOp → String
  | multiply => "Multiply"
  | divide => "Divide"
  | add => "Add"
  | subtract => "Subtract"
  | less => "LessThan"
  | lessEqual => "LessThanEqual"
  | greater => "GreaterThan"
  | greaterEqual => "GreaterThanEqual"
  | equal => "EqualEqual"
  | notEqual => "BangEqual"

end BinaryOp

namespace LogicalOp

/-- The logical operator that a kind of token stands for. -/
def ofKind? : Kind → Option LogicalOp
  | .kwAnd => some and
  | .kwOr => some or
  | _ => none

/-- How tightly a logical operator holds its left operand. -/
def leftPower : LogicalOp → Nat
  | and => 5
  | or => 3

/-- The spelling of a logical operator. -/
def symbol : LogicalOp → String
  | and => "and"
  | or => "or"

/-- The name of a logical operator in record notation. -/
def recordName : LogicalOp → String
  | and => "And"
  | or => "Or"

end LogicalOp

namespace Continuation

/-- What a kind of token does after an operand, if anything. -/
def ofKind? (kind : Kind) : Option Continuation :=
  match kind with
  | .leftParen => some call
  | .equal => some assign
  | kind =>
    match BinaryOp.ofKind? kind with
    | some op => some (binary op)
    | none => (LogicalOp.ofKind? kind).map logical

/-- How tightly a continuation holds the operand before it. -/
def leftPower : Continuation → Nat
  | call => 17
  | binary op => op.leftPower
  | logical op => op.leftPower
  | assign => 2

/-- How tightly a continuation holds the operand after it. A call has none. -/
def rightPower : Continuation → Nat
  | call => 0
  | binary op => op.leftPower + 1
  | logical op => op.leftPower + 1
  | assign => 1

end Continuation

end Lox
