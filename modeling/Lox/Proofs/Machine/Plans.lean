import Lox.Machine.Evaluate
import Mathlib.Tactic.Common

/-!
# Plans

A task is one of the computations of the evaluator, and the plan of a task says which tasks are its
parts, in which order, and how they depend on the results of earlier ones. `Task.run_succ` says that
the evaluator follows the plans. What holds of all plans need not be proved construct by construct.
-/

namespace Lox

/-- A computation of the evaluator. -/
inductive Task where
  | evaluate (e : Expr)
  | evaluateAll (es : List Expr)
  | call (callee : Value) (arguments : List Value) (paren : Token)
  | execute (s : Stmt)
  | executeAll (ss : List Stmt)

/-- The values that leave a statement. -/
def Completion.values : Completion → List Value
  | normal => []
  | returned value => [value]

namespace Task

/-- What a task results in. -/
@[reducible]
def Result : Task → Type
  | evaluate _ => Value
  | evaluateAll _ => List Value
  | call _ _ _ => Value
  | execute _ => Completion
  | executeAll _ => Completion

/-- The values that a task is about. -/
def operands : Task → List Value
  | call callee arguments _ => callee :: arguments
  | evaluate _ | evaluateAll _ | execute _ | executeAll _ => []

/-- The values in a result. -/
def yields : (t : Task) → t.Result → List Value
  | evaluate _, value => [value]
  | evaluateAll _, values => values
  | call _ _ _, value => [value]
  | execute _, completion => completion.values
  | executeAll _, completion => completion.values

/-- What the evaluator does for a task. -/
def run (clock : Clock) (fuel : Nat) : (t : Task) → Eval t.Result
  | evaluate e => Eval.evaluate clock fuel e
  | evaluateAll es => Eval.evaluateAll clock fuel es
  | call callee arguments paren => Eval.call clock fuel callee arguments paren
  | execute s => Eval.execute clock fuel s
  | executeAll ss => Eval.executeAll clock fuel ss

end Task

/-- A way to compute a result by parts. -/
inductive Plan (α : Type) where
  /-- Steps of the machine, with which the computation ends. -/
  | last (x : Eval α)
  /-- A task, and what its result leads to. -/
  | part (t : Task) (next : t.Result → Plan α)
  /-- Statements in a new scope, with which the computation ends. The new scope is inside `parent`,
  or else inside the current one. -/
  | inside (parent : Option ScopeId) (bindings : List (String × Value)) (body : List Stmt)
    (finish : Completion → α)

namespace Plan

variable {α : Type}

/-- A task with whose result the computation ends. -/
def whole (t : Task) : Plan t.Result :=
  part t fun result => last (pure result)

/-- The computation that follows a plan. -/
def run (clock : Clock) (fuel : Nat) : Plan α → Eval α
  | last x => x
  | part t next => do
    let result ← t.run clock fuel
    (next result).run clock fuel
  | inside parent bindings body finish => do
    let scope ← Eval.current
    let completion ← Eval.inScope (parent.getD scope) bindings (Eval.executeAll clock fuel body)
    return finish completion

end Plan

/-- The parts of the evaluation of an expression. -/
def Expr.plan : Expr → Plan Value
  | .literal atom => .last (pure atom.value)
  | .group inner => .whole (.evaluate inner)
  | .ident name => .last (Eval.lookup name)
  | .assign name value =>
    .part (.evaluate value) fun v => .last do
      Eval.assign name v
      return v
  | .unary op token operand =>
    .part (.evaluate operand) fun v => .last (Eval.atToken token (v.unary op))
  | .binary op token left right =>
    .part (.evaluate left) fun u =>
      .part (.evaluate right) fun v => .last (Eval.atToken token (u.binary op v))
  | .logical op _ left right =>
    .part (.evaluate left) fun u =>
      if u.settles op then .last (pure u) else .whole (.evaluate right)
  | .call callee paren arguments =>
    .part (.evaluate callee) fun f =>
      .part (.evaluateAll arguments) fun vs => .whole (.call f vs paren)

/-- The parts of the evaluation of expressions from left to right. -/
def Expr.planAll : List Expr → Plan (List Value)
  | [] => .last (pure [])
  | e :: rest =>
    .part (.evaluate e) fun v =>
      .part (.evaluateAll rest) fun vs => .last (pure (v :: vs))

/-- The parts of a call. -/
def Value.callPlan (clock : Clock) (callee : Value) (arguments : List Value) (paren : Token) :
    Plan Value :=
  match callee with
  | .native .clock _ =>
    if arguments.length ≠ Builtin.clock.arity then
      .last (Eval.fail (.wrongArity arguments.length Builtin.clock.arity) paren)
    else .last do
      let seconds ← Eval.readClock clock
      return .number seconds
  | .function f =>
    if arguments.length ≠ f.arity then
      .last (Eval.fail (.wrongArity arguments.length f.arity) paren)
    else
      .inside (some f.scope) ((f.parameters.map (·.lexeme)).zip arguments) f.body Completion.value
  | callee => .last (Eval.fail (.notCallable callee) paren)

/-- What follows a statement: nothing else if it returns. -/
def Plan.unless (next : Plan Completion) : Completion → Plan Completion
  | .normal => next
  | .returned value => .last (pure (.returned value))

/-- The parts of the execution of a statement. -/
def Stmt.plan : Stmt → Plan Completion
  | .var name none => .last do
    Eval.define name .nil
    return .normal
  | .var name (some e) =>
    .part (.evaluate e) fun v => .last do
      Eval.define name v
      return .normal
  | .function name parameters body => .last do
    let function ← Eval.closure name parameters body
    Eval.define name function
    return .normal
  | .expression e => .part (.evaluate e) fun _ => .last (pure .normal)
  | .print e =>
    .part (.evaluate e) fun v => .last do
      Eval.print v
      return .normal
  | .block body => .inside none [] body id
  | .ifThen condition thenBranch =>
    .part (.evaluate condition) fun v =>
      if v.truthy then .whole (.execute thenBranch) else .last (pure .normal)
  | .ifElse condition thenBranch elseBranch =>
    .part (.evaluate condition) fun v =>
      if v.truthy then .whole (.execute thenBranch) else .whole (.execute elseBranch)
  | .loop condition none body =>
    .part (.evaluate condition) fun v =>
      if v.truthy then
        .part (.execute body) (.unless (.whole (.execute (.loop condition none body))))
      else .last (pure .normal)
  | .loop condition (some step) body =>
    .part (.evaluate condition) fun v =>
      if v.truthy then
        .part (.execute body) (.unless
          (.part (.evaluate step) fun _ => .whole (.execute (.loop condition (some step) body))))
      else .last (pure .normal)
  | .ret _ none => .last (pure (.returned .nil))
  | .ret _ (some e) => .part (.evaluate e) fun v => .last (pure (.returned v))

/-- The parts of the execution of statements in order. -/
def Stmt.planAll : List Stmt → Plan Completion
  | [] => .last (pure .normal)
  | s :: rest => .part (.execute s) (.unless (.whole (.executeAll rest)))

/-- The plan of a task. -/
def Task.plan (clock : Clock) : (t : Task) → Plan t.Result
  | evaluate e => e.plan
  | evaluateAll es => Expr.planAll es
  | call callee arguments paren => callee.callPlan clock arguments paren
  | execute s => s.plan
  | executeAll ss => Stmt.planAll ss

section

variable {clock : Clock} {fuel : Nat}

/-- To give the value of a computation back adds nothing to it. -/
lemma Eval.bind_pure {α : Type} (x : Eval α) : (x >>= fun a => pure a) = x := by
  funext m
  rw [bind_apply]
  cases x m <;> rfl

/-- To follow a task as a whole is to do it. -/
@[simp]
lemma Plan.run_whole (t : Task) : (Plan.whole t).run clock fuel = t.run clock fuel :=
  Eval.bind_pure _

/-- What follows a statement is followed unless the statement has returned. -/
lemma Plan.run_unless (next : Plan Completion) (completion : Completion) :
    (next.unless completion).run clock fuel =
      match completion with
      | .normal => next.run clock fuel
      | .returned value => pure (.returned value) := by
  cases completion <;> rfl

/-- What follows a computation may be replaced by what does the same for each value. -/
lemma Eval.bind_congr {α β : Type} (x : Eval α) {f g : α → Eval β} (same : ∀ a, f a = g a) :
    (x >>= f) = (x >>= g) := by
  rw [funext same]

/-- A plan that depends on a condition is followed on the branch that is taken. -/
lemma Plan.run_ite {α : Type} (c : Prop) [Decidable c] (p q : Plan α) :
    (if c then p else q).run clock fuel = if c then p.run clock fuel else q.run clock fuel :=
  apply_ite (Plan.run clock fuel) c p q

/-- To evaluate an expression is to follow its plan. -/
lemma Expr.evaluate_plan (e : Expr) :
    Eval.evaluate clock (fuel + 1) e = e.plan.run clock fuel := by
  cases e with
  | group inner => exact (Plan.run_whole (.evaluate inner)).symm
  | logical op token left right =>
    apply Eval.bind_congr
    intro u
    rw [Plan.run_ite, Plan.run_whole]
    rfl
  | call callee paren arguments =>
    apply Eval.bind_congr
    intro f
    apply Eval.bind_congr
    intro vs
    exact (Plan.run_whole (.call f vs paren)).symm
  | _ => rfl

/-- To call a value is to follow the plan of the call. -/
lemma Value.call_plan (callee : Value) (arguments : List Value) (paren : Token) :
    Eval.call clock (fuel + 1) callee arguments paren =
      (callee.callPlan clock arguments paren).run clock fuel := by
  cases callee with
  | native builtin serial =>
    cases builtin
    rw [callPlan, Plan.run_ite]
    rfl
  | function f =>
    rw [callPlan, Plan.run_ite]
    rfl
  | _ => rfl

/-- To execute a statement is to follow its plan. -/
lemma Stmt.execute_plan (s : Stmt) :
    Eval.execute clock (fuel + 1) s = s.plan.run clock fuel := by
  cases s with
  | var name initializer => cases initializer <;> rfl
  | block body =>
    apply Eval.bind_congr
    intro scope
    exact (Eval.bind_pure _).symm
  | ifThen condition thenBranch =>
    apply Eval.bind_congr
    intro v
    rw [Plan.run_ite, Plan.run_whole]
    rfl
  | ifElse condition thenBranch elseBranch =>
    apply Eval.bind_congr
    intro v
    rw [Plan.run_ite, Plan.run_whole, Plan.run_whole]
    rfl
  | loop condition step body =>
    cases step with
    | none =>
      apply Eval.bind_congr
      intro v
      rw [Plan.run_ite]
      congr 1
      apply Eval.bind_congr
      intro completion
      rw [Plan.run_unless, Plan.run_whole]
      rfl
    | some step =>
      apply Eval.bind_congr
      intro v
      rw [Plan.run_ite]
      congr 1
      apply Eval.bind_congr
      intro completion
      rw [Plan.run_unless]
      cases completion with
      | normal =>
        apply Eval.bind_congr
        intro _
        exact (Plan.run_whole (.execute (.loop condition (some step) body))).symm
      | returned value => rfl
  | ret keyword value => cases value <;> rfl
  | _ => rfl

/-- To execute statements is to follow their plan. -/
lemma Stmt.executeAll_plan (ss : List Stmt) :
    Eval.executeAll clock (fuel + 1) ss = (planAll ss).run clock fuel := by
  cases ss with
  | nil => rfl
  | cons s rest =>
    apply Eval.bind_congr
    intro completion
    rw [Plan.run_unless, Plan.run_whole]
    rfl

/-- The evaluator follows the plan of each task. -/
lemma Task.run_succ (t : Task) : t.run clock (fuel + 1) = (t.plan clock).run clock fuel := by
  cases t with
  | evaluate e => exact e.evaluate_plan
  | evaluateAll es => cases es <;> rfl
  | call callee arguments paren => exact callee.call_plan arguments paren
  | execute s => exact s.execute_plan
  | executeAll ss => exact Stmt.executeAll_plan ss

/-- Without fuel, a task is cut off. -/
lemma Task.run_zero (t : Task) : t.run clock 0 = Eval.exhausted := by
  cases t <;> rfl

end

end Lox
