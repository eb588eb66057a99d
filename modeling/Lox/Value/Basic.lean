import Lox.Decimal.Layout
import Lox.Syntax.Tree
import Lox.Text.Quoted
import Lox.Text.Record

/-!
# Values

The values of the language. Functions are objects: two of them are equal only if they are the same
one, which their serial numbers tell. A function declared in a program carries the scope in which
its declaration was executed.
-/

namespace Lox

/-- The place of a scope in the store. -/
abbrev ScopeId := Nat

/-- The functions that the host provides. -/
inductive Builtin where
  | clock
deriving DecidableEq

/-- The name under which a host function is found. -/
def Builtin.name : Builtin → String
  | clock => "clock"

/-- The number of arguments of a host function. -/
def Builtin.arity : Builtin → Nat
  | clock => 0

/-- A function declared in a program. -/
structure Closure where
  name : Token
  parameters : List Token
  body : List Stmt
  /-- The scope in which the declaration was executed. -/
  scope : ScopeId
  /-- Tells the function from all others. -/
  serial : Nat

/-- The number of arguments of a function. -/
def Closure.arity (f : Closure) : Nat :=
  f.parameters.length

/-- A value. -/
inductive Value where
  | number (x : Float)
  | string (s : String)
  | nil
  | boolean (b : Bool)
  /-- A host function, with a number that tells it from others. -/
  | native (builtin : Builtin) (serial : Nat)
  | function (f : Closure)

/-- The value of a literal. -/
def Atom.value : Atom → Value
  | number x => .number x
  | boolean b => .boolean b
  | nil => .nil
  | string s => .string s

namespace Value

/-- The name of a value's type. -/
def typeName : Value → String
  | number _ => "number"
  | string _ => "string"
  | nil => "nil"
  | boolean _ => "boolean"
  | native _ _ | function _ => "function"

/-- A value as it is printed. -/
def text : Value → String
  | number x => Decimal.Layout.printed.text x
  | string s => s
  | nil => "nil"
  | boolean b => Text.Record.boolean b
  | native _ _ => "<native fn>"
  | function f => "<fn " ++ f.name.lexeme ++ ">"

/-- A value in record notation. -/
def record : Value → String
  | number x => Text.Record.tuple "Number" [Decimal.Layout.listed.text x]
  | string s => Text.Record.tuple "String" [Text.quoteString s]
  | nil => "Nil"
  | boolean b => Text.Record.tuple "Bool" [Text.Record.boolean b]
  | native .clock _ => Text.Record.tuple "NativeFunction" ["NativeClock"]
  | function f =>
    Text.Record.tuple "Function"
      [Text.Record.entry "Function"
        [("name", Text.quoteString f.name.lexeme), ("arity", Text.Record.number f.arity)] true]

/-- Whether a value counts as true: all do but `nil` and `false`. -/
def truthy : Value → Bool
  | nil | boolean false => false
  | _ => true

/-- Equality of the language. Values of different types differ, a number that is not a number
differs from itself, and functions are equal only to themselves. -/
def equals : Value → Value → Bool
  | number x, number y => x == y
  | string s, string t => s == t
  | nil, nil => true
  | boolean b, boolean c => b == c
  | native _ n, native _ m => n == m
  | function f, function g => f.serial == g.serial
  | _, _ => false

end Value

end Lox
