import Lox.Proofs.Machine.Along
import Lox.Syntax.Program
import Lox.Token.Scan
import Mathlib

/-!
# The current scope

Blocks and calls run in scopes of their own. However they end, the scope that was current before is
current again, so that whatever is executed on a machine leaves it where it found it, and programs
that are run one after another all start from the globals.
-/

namespace Lox.Machine

/-- Both machines stand in the same scope. -/
def SameScope (m m' : Machine) : Prop :=
  m'.current = m.current

/-- No step moves to another scope for good. -/
lemma kept_sameScope : Kept SameScope where
  refl m := rfl
  trans first second := Eq.trans second first
  define name value m m' left := by
    cases left
    rfl
  assign name value m m' left := by
    obtain ⟨store, current, printed, readings, serial⟩ := m
    dsimp only [Eval.assign] at left
    split at left
    · cases left
      rfl
    · cases left
      rfl
  print value m m' left := by
    cases left
    rfl
  readClock clock m m' left := by
    cases left
    rfl
  closure name parameters body m m' left := by
    cases left
    rfl
  inScope parent bindings _ m m' left := by
    -- Wherever the inner computation ends, this is where the scope is restored.
    obtain ⟨m₁, -, rfl⟩ := Eval.machine?_inScope left
    rfl

/-- The machine is left by programs that are run one after another, whether they end, return or
fail. -/
inductive Reached : Machine → Prop where
  | initial :
    Reached .initial
  | interpret {m m' : Machine} {clock : Clock} {fuel : Nat} {program : Program} :
    Reached m → m' ∈ (m.interpret clock fuel program).machine? →
    Reached m'

/-- Every computation, also one that returns or fails at any depth, leaves the machine in the scope
in which it finds it; so every program finds it in the globals. -/
theorem scope_restored :
    (∀ clock fuel, Eval.AllAlong SameScope clock fuel) ∧
      ∀ m, Reached m → m.current = Store.globals := by
  have restored := Eval.allAlong kept_sameScope
  refine ⟨restored, fun m reached => ?_⟩
  induction reached with
  | initial => rfl
  | @interpret m m' clock fuel program _ left ih =>
    have same : m'.current = m.current := (restored clock fuel).executeAll program m m' left
    exact same.trans ih

/-- A program that fails in a call inside two blocks leaves the machine in the globals. -/
theorem scope_restored_after_failure :
    ∃ e m,
      Machine.initial.interpret (fun _ => 0) 20
          (Program.parse (Item.tokens (scan
            "\x7b fun f() \x7b \x7b return -\"a\"; \x7d \x7d f(); \x7d"))).1 =
        .error e m ∧
      1 < m.store.scopes.size ∧ m.current = Store.globals := by
  obtain ⟨e, m, failed, deep⟩ : ∃ e m,
      Machine.initial.interpret (fun _ => 0) 20
          (Program.parse (Item.tokens (scan
            "\x7b fun f() \x7b \x7b return -\"a\"; \x7d \x7d f(); \x7d"))).1 =
        .error e m ∧ 1 < m.store.scopes.size :=
    ⟨_, _, by cbv, by cbv⟩
  have left := congrArg Outcome.machine? failed
  exact ⟨e, m, failed, deep, scope_restored.2 m (.interpret .initial left)⟩

end Lox.Machine
