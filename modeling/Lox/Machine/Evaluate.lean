import Lox.Machine.Basic
import Lox.Value.Operation

/-!
# Evaluation

Expressions and statements are evaluated by recursion on fuel, one unit for each step into a part,
so that a program that does not end is cut off. The fuel shows only in whether the outcome is
`exhausted`.
-/

namespace Lox

/-- How a statement ends if it does not fail. -/
inductive Completion where
  | normal
  /-- A `return` is on its way to the call around it. -/
  | returned (value : Value)

/-- The value of a call whose body has ended. -/
def Completion.value : Completion → Value
  | normal => .nil
  | returned value => value

namespace Eval

mutual

/-- Evaluates an expression. -/
def evaluate (clock : Clock) (fuel : Nat) (e : Expr) : Eval Value :=
  match fuel with
  | 0 => exhausted
  | fuel + 1 =>
    match e with
    | .literal atom => pure atom.value
    | .group inner => evaluate clock fuel inner
    | .ident name => lookup name
    | .assign name value => do
      let value ← evaluate clock fuel value
      assign name value
      return value
    | .unary op token operand => do
      let operand ← evaluate clock fuel operand
      atToken token (operand.unary op)
    | .binary op token left right => do
      let left ← evaluate clock fuel left
      let right ← evaluate clock fuel right
      atToken token (left.binary op right)
    | .logical op _ left right => do
      let left ← evaluate clock fuel left
      if left.settles op then return left else evaluate clock fuel right
    | .call callee paren arguments => do
      let callee ← evaluate clock fuel callee
      let arguments ← evaluateAll clock fuel arguments
      call clock fuel callee arguments paren

/-- Evaluates expressions from left to right. -/
def evaluateAll (clock : Clock) (fuel : Nat) (es : List Expr) : Eval (List Value) :=
  match fuel with
  | 0 => exhausted
  | fuel + 1 =>
    match es with
    | [] => return []
    | e :: rest => do
      let value ← evaluate clock fuel e
      let values ← evaluateAll clock fuel rest
      return value :: values

/-- Calls a value. The body of a function runs in a new scope inside the one that the function
carries, with the parameters bound to the arguments. -/
def call (clock : Clock) (fuel : Nat) (callee : Value) (arguments : List Value) (paren : Token) :
    Eval Value :=
  match fuel with
  | 0 => exhausted
  | fuel + 1 =>
    match callee with
    | .native .clock _ =>
      if arguments.length ≠ Builtin.clock.arity then
        fail (.wrongArity arguments.length Builtin.clock.arity) paren
      else do
        let seconds ← readClock clock
        return .number seconds
    | .function f =>
      if arguments.length ≠ f.arity then fail (.wrongArity arguments.length f.arity) paren
      else do
        let completion ←
          inScope f.scope ((f.parameters.map (·.lexeme)).zip arguments)
            (executeAll clock fuel f.body)
        return completion.value
    | callee => fail (.notCallable callee) paren

/-- Executes a statement. -/
def execute (clock : Clock) (fuel : Nat) (s : Stmt) : Eval Completion :=
  match fuel with
  | 0 => exhausted
  | fuel + 1 =>
    match s with
    | .var name none => do
      define name .nil
      return .normal
    | .var name (some e) => do
      let value ← evaluate clock fuel e
      define name value
      return .normal
    | .function name parameters body => do
      let function ← closure name parameters body
      define name function
      return .normal
    | .expression e => do
      let _ ← evaluate clock fuel e
      return .normal
    | .print e => do
      let value ← evaluate clock fuel e
      print value
      return .normal
    | .block body => do
      let scope ← current
      inScope scope [] (executeAll clock fuel body)
    | .ifThen condition thenBranch => do
      let value ← evaluate clock fuel condition
      if value.truthy then execute clock fuel thenBranch else return .normal
    | .ifElse condition thenBranch elseBranch => do
      let value ← evaluate clock fuel condition
      if value.truthy then execute clock fuel thenBranch else execute clock fuel elseBranch
    | .loop condition none body => do
      let value ← evaluate clock fuel condition
      if value.truthy then
        match ← execute clock fuel body with
        | .normal => execute clock fuel (.loop condition none body)
        | .returned value => return .returned value
      else return .normal
    | .loop condition (some step) body => do
      let value ← evaluate clock fuel condition
      if value.truthy then
        match ← execute clock fuel body with
        | .normal => do
          let _ ← evaluate clock fuel step
          execute clock fuel (.loop condition (some step) body)
        | .returned value => return .returned value
      else return .normal
    | .ret _ none => return .returned .nil
    | .ret _ (some e) => do
      let value ← evaluate clock fuel e
      return .returned value

/-- Executes statements in order, up to the first that returns. -/
def executeAll (clock : Clock) (fuel : Nat) (statements : List Stmt) : Eval Completion :=
  match fuel with
  | 0 => exhausted
  | fuel + 1 =>
    match statements with
    | [] => return .normal
    | s :: rest => do
      match ← execute clock fuel s with
      | .normal => executeAll clock fuel rest
      | .returned value => return .returned value

end

end Eval

/-- Runs a program on a machine. -/
def Machine.interpret (clock : Clock) (fuel : Nat) (program : Program) (m : Machine) :
    Outcome Completion :=
  Eval.executeAll clock fuel program m

end Lox
