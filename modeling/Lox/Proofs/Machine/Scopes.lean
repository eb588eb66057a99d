import Lox.Machine.Evaluate
import Mathlib.Tactic.Common

/-!
# Computations in new scopes

A computation in a new scope is one in the machine in which the scope has been opened, with the scope
restored behind it. Proofs about blocks and calls go through these two steps.
-/

namespace Lox.Eval

variable {α : Type}

/-- The machine in a new scope inside `parent`. -/
def opened (parent : ScopeId) (bindings : List (String × Value)) (m : Machine) : Machine :=
  let (scope, store) := m.store.child parent
  ⟨store.defineAll scope bindings, scope, m.printed, m.readings, m.serial⟩

/-- The outcome with its machine back in the scope `c`. -/
def restored (c : ScopeId) : Outcome α → Outcome α
  | .ok value m => .ok value { m with current := c }
  | .error e m => .error e { m with current := c }
  | .exhausted => .exhausted

/-- A computation in a new scope is one in the opened machine, with the scope restored. -/
lemma inScope_apply (parent : ScopeId) (bindings : List (String × Value)) (x : Eval α)
    (m : Machine) :
    inScope parent bindings x m = restored m.current (x (opened parent bindings m)) :=
  rfl

/-- Restoring a scope does not cut a computation off. -/
lemma restored_eq_exhausted {c : ScopeId} {o : Outcome α} :
    restored c o = .exhausted ↔ o = .exhausted := by
  cases o with
  | ok value m => exact ⟨nofun, nofun⟩
  | error e m => exact ⟨nofun, nofun⟩
  | exhausted => exact Iff.rfl

end Lox.Eval
