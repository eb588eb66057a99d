import Lox.Proofs.Machine.Plans
import Mathlib.Tactic.Common

/-!
# Fuel

More fuel never changes how a computation ends. `Eval.Extends x y` says that `y` ends as `x` does
wherever `x` ends at all. It is a congruence for the ways in which computations are put together, and
so for all plans. `Eval.Steady` collects what follows from it for one unit of fuel more.
-/

namespace Lox

namespace Eval

variable {α β : Type}

/-- The second computation ends as the first one does, wherever the first one ends. -/
def Extends (x y : Eval α) : Prop :=
  ∀ m, x m ≠ .exhausted → y m = x m

/-- A computation ends as it does itself. -/
lemma Extends.refl (x : Eval α) : Extends x x :=
  fun _ _ => rfl

/-- Extensions may be put together. -/
lemma Extends.trans {x y z : Eval α} (first : Extends x y) (second : Extends y z) :
    Extends x z := by
  intro m ended
  have same := first m ended
  rw [← same] at ended ⊢
  exact second m ended

/-- Whatever a computation does, it extends one that never ends. -/
lemma Extends.of_exhausted (y : Eval α) : Extends exhausted y :=
  fun _ ended => (ended rfl).elim

/-- Extending the parts of a sequence extends the sequence. -/
lemma Extends.bind {x y : Eval α} {f g : α → Eval β} (first : Extends x y)
    (second : ∀ value, Extends (f value) (g value)) : Extends (x >>= f) (y >>= g) := by
  intro m ended
  rw [bind_apply] at ended
  rw [bind_apply, bind_apply]
  have same : y m = x m := by
    apply first
    intro stuck
    rw [stuck] at ended
    exact ended rfl
  rw [same]
  cases h : x m with
  | ok value m₁ =>
    rw [h] at ended
    exact second value m₁ ended
  | error e m₁ => rfl
  | exhausted => rfl

/-- Extending a computation extends it inside a new scope. -/
lemma Extends.inScope {x y : Eval α} (parent : ScopeId) (bindings : List (String × Value))
    (inner : Extends x y) : Extends (inScope parent bindings x) (inScope parent bindings y) := by
  rintro ⟨store, current, printed, readings, serial⟩ ended
  simp only [Eval.inScope] at ended ⊢
  rw [inner]
  intro stuck
  rw [stuck] at ended
  exact ended rfl

end Eval

variable {clock : Clock} {fuel : Nat}

/-- A plan is extended where all tasks are. -/
lemma Plan.run_extends {α : Type}
    (tasks : ∀ t : Task, Eval.Extends (t.run clock fuel) (t.run clock (fuel + 1))) (plan : Plan α) :
    Eval.Extends (plan.run clock fuel) (plan.run clock (fuel + 1)) := by
  induction plan with
  | last x => exact .refl x
  | part t next ih => exact .bind (tasks t) ih
  | inside parent bindings body finish =>
    refine .bind (.refl _) fun scope => ?_
    exact .bind ((tasks (.executeAll body)).inScope _ bindings) fun _ => .refl _

/-- Whatever the fuel, one unit more does not change how a task ends. -/
lemma Task.run_extends (clock : Clock) (fuel : Nat) (t : Task) :
    Eval.Extends (t.run clock fuel) (t.run clock (fuel + 1)) := by
  induction fuel generalizing t with
  | zero =>
    rw [run_zero]
    exact .of_exhausted _
  | succ fuel ih =>
    rw [run_succ, run_succ]
    exact (t.plan clock).run_extends ih

namespace Eval

variable {α : Type}

/-- One unit of fuel more extends every computation that has `fuel` units. -/
structure Steady (clock : Clock) (fuel : Nat) : Prop where
  evaluate : ∀ e, Extends (evaluate clock fuel e) (evaluate clock (fuel + 1) e)
  evaluateAll : ∀ es, Extends (evaluateAll clock fuel es) (evaluateAll clock (fuel + 1) es)
  call : ∀ callee arguments paren,
    Extends (call clock fuel callee arguments paren) (call clock (fuel + 1) callee arguments paren)
  execute : ∀ s, Extends (execute clock fuel s) (execute clock (fuel + 1) s)
  executeAll : ∀ ss, Extends (executeAll clock fuel ss) (executeAll clock (fuel + 1) ss)

/-- Whatever the fuel, one unit more does not change how a computation ends. -/
lemma steady (clock : Clock) (fuel : Nat) : Steady clock fuel where
  evaluate e := Task.run_extends clock fuel (.evaluate e)
  evaluateAll es := Task.run_extends clock fuel (.evaluateAll es)
  call callee arguments paren := Task.run_extends clock fuel (.call callee arguments paren)
  execute s := Task.run_extends clock fuel (.execute s)
  executeAll ss := Task.run_extends clock fuel (.executeAll ss)

/-- If one unit of fuel more never changes how a computation ends, then no greater amount does. -/
lemma Extends.of_le {x : Nat → Eval α} (steady : ∀ fuel, Extends (x fuel) (x (fuel + 1)))
    {n k : Nat} (le : n ≤ k) : Extends (x n) (x k) := by
  intro m ended
  induction le with
  | refl => rfl
  | @step k _ ih =>
    have same : x (k + 1) m = x k m := by
      apply steady k m
      rw [ih]
      exact ended
    exact same.trans ih

/-- The evaluation of an expression with more fuel. -/
lemma extends_evaluate {n k : Nat} (le : n ≤ k) (e : Expr) :
    Extends (evaluate clock n e) (evaluate clock k e) :=
  .of_le (fun fuel => (steady clock fuel).evaluate e) le

/-- More fuel extends the execution of a statement. -/
lemma extends_execute {n k : Nat} (le : n ≤ k) (s : Stmt) :
    Extends (execute clock n s) (execute clock k s) :=
  .of_le (fun fuel => (steady clock fuel).execute s) le

/-- More fuel extends the execution of statements one after another. -/
lemma extends_executeAll {n k : Nat} (le : n ≤ k) (ss : List Stmt) :
    Extends (executeAll clock n ss) (executeAll clock k ss) :=
  .of_le (fun fuel => (steady clock fuel).executeAll ss) le

end Eval

namespace Machine

variable {clock : Clock} {n k : Nat} {program : Program} {m : Machine}

/-- A program that ends goes on to end in the same way with any greater amount of fuel. -/
lemma interpret_of_le (le : n ≤ k) (ended : m.interpret clock n program ≠ .exhausted) :
    m.interpret clock k program = m.interpret clock n program :=
  Eval.extends_executeAll le program m ended

/-- A program ends in one way only, whatever the amounts of fuel. -/
lemma interpret_unique (left : m.interpret clock n program ≠ .exhausted)
    (right : m.interpret clock k program ≠ .exhausted) :
    m.interpret clock n program = m.interpret clock k program := by
  rcases Nat.le_total n k with le | le
  · exact (interpret_of_le le left).symm
  · exact interpret_of_le le right

end Machine

end Lox
