import Lox.Proofs.Machine.Fuel

/-!
# Programs one after another

A program that ends normally and another one behind it are one program: the second one goes on with
the machine that the first one leaves.
-/

namespace Lox

variable {clock : Clock} {program : Program} {m m₁ : Machine}

/-- A statement that ends normally is followed by the others. -/
lemma Eval.executeAll_cons {fuel : Nat} {s : Stmt} (normal : execute clock fuel s m = .ok .normal m₁)
    (rest : List Stmt) : executeAll clock (fuel + 1) (s :: rest) m = executeAll clock fuel rest m₁ := by
  rw [executeAll, bind_apply, normal]

/-- Statements end normally only if the first one does and then the others do. -/
lemma Eval.executeAll_cons_normal {fuel : Nat} {s : Stmt} {rest : List Stmt}
    (normal : executeAll clock fuel (s :: rest) m = .ok .normal m₁) :
    ∃ fuel' m', fuel = fuel' + 1 ∧ execute clock fuel' s m = .ok .normal m' ∧
      executeAll clock fuel' rest m' = .ok .normal m₁ := by
  cases fuel with
  | zero => cases normal
  | succ fuel =>
    rw [executeAll, bind_apply] at normal
    cases first : execute clock fuel s m with
    | ok completion m' =>
      rw [first] at normal
      cases completion with
      | normal => exact ⟨fuel, m', rfl, first, normal⟩
      | returned v => cases normal
    | error e m' =>
      rw [first] at normal
      cases normal
    | exhausted =>
      rw [first] at normal
      cases normal

/-- What stands behind a program that ends normally is executed on the machine it leaves. -/
lemma Eval.executeAll_append {fuel j : Nat}
    (normal : executeAll clock fuel program m = .ok .normal m₁) (le : fuel ≤ j)
    (program' : Program) :
    executeAll clock (program.length + j) (program ++ program') m =
      executeAll clock j program' m₁ := by
  induction program generalizing fuel m with
  | nil =>
    cases fuel with
    | zero => cases normal
    | succ fuel =>
      cases normal
      rw [List.length_nil, Nat.zero_add, List.nil_append]
  | cons s rest ih =>
    -- One unit of fuel per statement in front, and the rest for what stands behind.
    obtain ⟨fuel, m', rfl, first, others⟩ := executeAll_cons_normal normal
    have more : execute clock (rest.length + j) s m = .ok .normal m' := by
      have enough : fuel ≤ rest.length + j := by omega
      rw [extends_execute enough s m, first]
      rw [first]
      exact nofun
    rw [List.length_cons, Nat.succ_add, List.cons_append, executeAll_cons more]
    exact ih others (Nat.le_of_succ_le le)

/-- A program behind one that ends normally ends as it does on the machine that the first leaves. -/
theorem Machine.interpret_append_iff {fuel : Nat} {o : Outcome Completion}
    (normal : m.interpret clock fuel program = .ok .normal m₁) (ended : o ≠ .exhausted)
    (program' : Program) :
    (∃ fuel', m.interpret clock fuel' (program ++ program') = o) ↔
      ∃ fuel', m₁.interpret clock fuel' program' = o := by
  constructor
  · rintro ⟨fuel', rfl⟩
    -- With the larger amount, both the first program and the second one end.
    refine ⟨max fuel fuel', ?_⟩
    have together := Eval.executeAll_append normal (Nat.le_max_left fuel fuel') program'
    have same : m.interpret clock (program.length + max fuel fuel') (program ++ program') =
        m.interpret clock fuel' (program ++ program') :=
      interpret_of_le (by omega) ended
    rw [← same]
    exact together.symm
  · rintro ⟨fuel', rfl⟩
    refine ⟨program.length + max fuel fuel', ?_⟩
    have together := Eval.executeAll_append normal (Nat.le_max_left fuel fuel') program'
    have same : m₁.interpret clock (max fuel fuel') program' = m₁.interpret clock fuel' program' :=
      interpret_of_le (Nat.le_max_right fuel fuel') ended
    rw [← same]
    exact together

end Lox
