import Lox.Value.Error

/-!
# Operations on values

Arithmetic and comparison need numbers, only `+` also joins strings. Division by zero is `nil`.
-/

namespace Lox.Value

/-- Applies an operation to two numbers. -/
def numeric (f : Float → Float → Value) : Value → Value → Except RuntimeCause Value
  | number x, number y => .ok (f x y)
  | left, right => .error (.notNumbers left right)

/-- Adds two numbers or joins two strings. -/
def add : Value → Value → Except RuntimeCause Value
  | number x, number y => .ok (number (x + y))
  | string s, string t => .ok (string (s ++ t))
  | left, right => .error (.notAddable left right)

/-- Divides numbers, where dividing by zero of either sign gives `nil`. -/
def quotient (x y : Float) : Value :=
  if y == 0 then nil else number (x / y)

/-- Applies a binary operator. -/
def binary : BinaryOp → Value → Value → Except RuntimeCause Value
  | .add, left, right => add left right
  | .subtract, left, right => numeric (fun x y => number (x - y)) left right
  | .multiply, left, right => numeric (fun x y => number (x * y)) left right
  | .divide, left, right => numeric quotient left right
  | .less, left, right => numeric (fun x y => boolean (x < y)) left right
  | .lessEqual, left, right => numeric (fun x y => boolean (x ≤ y)) left right
  | .greater, left, right => numeric (fun x y => boolean (y < x)) left right
  | .greaterEqual, left, right => numeric (fun x y => boolean (y ≤ x)) left right
  | .equal, left, right => .ok (boolean (left.equals right))
  | .notEqual, left, right => .ok (boolean (!left.equals right))

/-- Applies a prefix operator. -/
def unary : PrefixOp → Value → Except RuntimeCause Value
  | .not, operand => .ok (boolean (!operand.truthy))
  | .negate, number x => .ok (number (-x))
  | .negate, operand => .error (.notNumber operand)

/-- Whether the left operand of a logical operator is its result, so that the right one is not
evaluated. -/
def settles : LogicalOp → Value → Bool
  | .or, left => left.truthy
  | .and, left => !left.truthy

end Lox.Value
