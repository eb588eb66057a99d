import Lox.Proofs.Simulation.Logic

/-!
# Evaluation matches itself

Statements that are alike, executed by machines that are alike, end alike. The proof is by induction
on the fuel of one side, where `Eval.Matched` says what is known for an amount of fuel; the fuel of
the other side is found on the way. A statement that declares names needs scopes with the same
bindings; for any other it is enough that names mean the same.
-/

namespace Lox.Eval

variable {α β γ : Type}

/-- Sequences may be regrouped. -/
lemma bind_assoc (x : Eval α) (f : α → Eval β) (g : β → Eval γ) :
    (x >>= f) >>= g = x >>= fun value => f value >>= g := by
  funext m
  simp only [bind_apply]
  cases x m with
  | ok value m₁ => rfl
  | error e m₁ => rfl
  | exhausted => rfl

/-- One round of a loop behind its condition: the body and, unless it returns, the step. -/
def round (clock : Clock) (fuel : Nat) (body : Stmt) (step : Expr) : Eval Completion := do
  match ← execute clock fuel body with
  | .normal => do
    let _ ← evaluate clock fuel step
    return .normal
  | .returned value => return .returned value

/-- Goes round once more if a condition holds and the round does not return. -/
def goRound (condition : Eval Value) (round again : Eval Completion) : Eval Completion := do
  let value ← condition
  if value.truthy then
    match ← round with
    | .normal => again
    | .returned value => return .returned value
  else return .normal

/-- A loop with a step goes round with its body and the step. -/
lemma execute_loop_some (clock : Clock) (fuel : Nat) (condition step : Expr) (body : Stmt) :
    execute clock (fuel + 1) (.loop condition (some step) body) =
      goRound (evaluate clock fuel condition) (round clock fuel body step)
        (execute clock fuel (.loop condition (some step) body)) := by
  rw [execute, goRound]
  congr
  funext value
  cases value.truthy with
  | false => rfl
  | true =>
    simp only [if_true, round, bind_assoc]
    congr
    funext completion
    cases completion with
    | normal =>
      simp only [bind_assoc]
      rfl
    | returned value => rfl

/-- A list of one expression statement evaluates the expression. -/
lemma executeAll_expression (clock : Clock) (fuel : Nat) (e : Expr) :
    executeAll clock (fuel + 2) [.expression e] =
      evaluate clock fuel e >>= fun _ => pure .normal := by
  rw [executeAll, execute, bind_assoc]
  rfl

/-- What computations with `fuel` units match. -/
structure Matched (P : Pairing) (clock : Clock) (fuel : Nat) : Prop where
  evaluate {w : World} {c c' : ScopeId} (e : Expr) :
    w.near c c' →
    Matches P w c c' Value.Alike (evaluate clock fuel e) fun k => evaluate clock k e
  evaluateAll {w : World} {c c' : ScopeId} (es : List Expr) :
    w.near c c' →
    Matches P w c c' (fun w => List.Forall₂ (Value.Alike w)) (evaluateAll clock fuel es)
      fun k => evaluateAll clock k es
  call {w : World} {c c' : ScopeId} {callee callee' : Value} {arguments arguments' : List Value}
    (paren : Token) :
    callee.Alike w callee' → List.Forall₂ (Value.Alike w) arguments arguments' →
    Matches P w c c' Value.Alike (call clock fuel callee arguments paren)
      fun k => call clock k callee' arguments' paren
  execute {w : World} {c c' : ScopeId} {s s' : Stmt} :
    s.Alike s' → w.near c c' → s.Plain ∨ w.same c c' →
    Matches P w c c' Completion.Alike (execute clock fuel s) fun k => execute clock k s'
  executeAll {w : World} {c c' : ScopeId} {ss ss' : List Stmt} :
    Stmt.AllAlike ss ss' → w.same c c' →
    Matches P w c c' Completion.Alike (executeAll clock fuel ss) fun k => executeAll clock k ss'

namespace Matched

variable {P : Pairing} {clock : Clock} {fuel : Nat} {w : World} {c c' : ScopeId}

/-- With one more unit, an expression matches itself where names mean the same. -/
lemma evaluate_succ (h : Matched P clock fuel) (near : w.near c c') (e : Expr) :
    Matches P w c c' Value.Alike (Eval.evaluate clock (fuel + 1) e)
      fun k => Eval.evaluate clock k e := by
  apply Matches.of_succ
  cases e with
  | literal atom =>
    refine .pure fun w' _ => ?_
    cases atom with
    | number x => exact .number x
    | boolean b => exact .boolean b
    | nil => exact .nil
    | string s => exact .string s
  | group inner => exact h.evaluate inner near
  | ident name => exact .lookup near name
  | assign name value =>
    refine .bind (h.evaluate value near) fun w₁ v v' g₁ related => ?_
    refine .bind (.assign (g₁.near near) name related) fun w₂ _ _ g₂ _ => ?_
    exact .pure fun w' g => related.grow (g₂.trans g)
  | unary op token operand =>
    refine .bind (h.evaluate operand near) fun w₁ v v' g₁ related => ?_
    exact .atToken token (related.unary op)
  | binary op token left right =>
    refine .bind (h.evaluate left near) fun w₁ u u' g₁ leftAlike => ?_
    refine .bind (h.evaluate right (g₁.near near)) fun w₂ v v' g₂ rightAlike => ?_
    exact .atToken token ((leftAlike.grow g₂).binary rightAlike op)
  | logical op token left right =>
    refine .bind (h.evaluate left near) fun w₁ u u' g₁ related => ?_
    rw [related.settles_eq op]
    cases u'.settles op with
    | true => exact .pure fun w' g => related.grow g
    | false => exact h.evaluate right (g₁.near near)
  | call callee paren arguments =>
    refine .bind (h.evaluate callee near) fun w₁ v v' g₁ related => ?_
    refine .bind (h.evaluateAll arguments (g₁.near near)) fun w₂ vs vs' g₂ allRelated => ?_
    exact h.call paren (related.grow g₂) allRelated

/-- With one more unit, expressions one after another match themselves where names mean the same. -/
lemma evaluateAll_succ (h : Matched P clock fuel) (near : w.near c c') (es : List Expr) :
    Matches P w c c' (fun w => List.Forall₂ (Value.Alike w)) (Eval.evaluateAll clock (fuel + 1) es)
      fun k => Eval.evaluateAll clock k es := by
  apply Matches.of_succ
  cases es with
  | nil => exact .pure fun _ _ => .nil
  | cons e rest =>
    refine .bind (h.evaluate e near) fun w₁ v v' g₁ related => ?_
    refine .bind (h.evaluateAll rest (g₁.near near)) fun w₂ vs vs' g₂ allRelated => ?_
    exact .pure fun w' g => .cons (related.grow (g₂.trans g)) (Value.Alike.grow_all g allRelated)

/-- With one more unit, calls of values that are alike match if their arguments are alike. -/
lemma call_succ (h : Matched P clock fuel) {callee callee' : Value} {arguments arguments' : List Value}
    (paren : Token) (calleeAlike : callee.Alike w callee')
    (argumentsAlike : List.Forall₂ (Value.Alike w) arguments arguments') :
    Matches P w c c' Value.Alike (Eval.call clock (fuel + 1) callee arguments paren)
      fun k => Eval.call clock k callee' arguments' paren := by
  apply Matches.of_succ
  have failure := RuntimeCause.Alike.notCallable calleeAlike
  cases calleeAlike with
  | number x => exact .fail paren failure
  | string s => exact .fail paren failure
  | nil => exact .fail paren failure
  | boolean b => exact .fail paren failure
  | native builtin serial =>
    cases builtin
    simp only [Eval.call, argumentsAlike.length_eq]
    split
    · exact .fail paren (.wrongArity _ _)
    · refine .bind (.readClock clock) fun w₁ x x' g₁ eq => ?_
      subst eq
      exact .pure fun _ _ => .number x
  | function name parameters serial body near =>
    simp only [Eval.call, Closure.arity, argumentsAlike.length_eq]
    by_cases arity : arguments'.length = parameters.length
    case neg =>
      simp only [ne_eq, arity, not_false_eq_true, if_true]
      exact .fail paren (.wrongArity _ _)
    case pos =>
      simp only [ne_eq, arity, not_true_eq_false, if_false]
      have bindings := bindingsAlike_zip (parameters.map (·.lexeme)) argumentsAlike
      refine .bind (.inScope near bindings fun w' d d' _ same => h.executeAll body same) ?_
      intro w₁ a a' _ related
      refine .pure fun w' g => ?_
      cases related with
      | normal => exact .nil
      | returned v => exact v.grow g

/-- Loops match if their rounds do, and what follows a round. -/
lemma goRound (h : Matched P clock fuel) (near : w.near c c') {condition : Expr}
    {x again : Eval Completion} {y again' : Nat → Eval Completion}
    (roundMatches : ∀ {w : World}, w.near c c' → Matches P w c c' Completion.Alike x y)
    (againMatches : ∀ {w : World}, w.near c c' → Matches P w c c' Completion.Alike again again') :
    Matches P w c c' Completion.Alike (Eval.goRound (Eval.evaluate clock fuel condition) x again)
      fun k => Eval.goRound (Eval.evaluate clock k condition) (y k) (again' k) := by
  refine .bind (h.evaluate condition near) fun w₁ v v' g₁ related => ?_
  rw [related.truthy_eq]
  cases v'.truthy with
  | false => exact .pure fun _ _ => .normal
  | true =>
    refine .bind (roundMatches (g₁.near near)) fun w₂ a a' g₂ ended => ?_
    cases ended with
    | normal => exact againMatches (g₂.near (g₁.near near))
    | returned v => exact .pure fun w' g => .returned (v.grow g)

/-- Rounds match if the bodies are alike. -/
lemma round (h : Matched P clock fuel) (near : w.near c c') {s s' : Stmt} (alike : s.Alike s')
    (plain : s.Plain) (step : Expr) :
    Matches P w c c' Completion.Alike (Eval.round clock fuel s step)
      fun k => Eval.round clock k s' step := by
  refine .bind (h.execute alike near (.inl plain)) fun w₁ a a' g₁ ended => ?_
  cases ended with
  | returned v => exact .pure fun w' g => .returned (v.grow g)
  | normal =>
    exact .bind (h.evaluate step (g₁.near near)) fun _ _ _ _ _ => .pure fun _ _ => .normal

/-- A round matches the block of a body that is alike and the step. -/
lemma round_inside (h : Matched P clock fuel) (near : w.near c c') {s s' : Stmt}
    (alike : s.Alike s') (plain : s.Plain) (step : Expr) :
    Matches P w c c' Completion.Alike (Eval.round clock fuel s step)
      fun k => Eval.execute clock k (.block [s', .expression step]) := by
  -- Four units of fuel on the right: for the block, its list, the step's list and the step.
  apply Matches.of_succ
  refine .inScope_right near fun w₁ d' _ near₁ => ?_
  apply Matches.of_succ
  refine .bind (h.execute alike near₁ (.inl plain)) fun w₂ a a' g₂ ended => ?_
  cases ended with
  | returned v => exact .pure fun w' g => .returned (v.grow g)
  | normal =>
    apply Matches.of_succ
    apply Matches.of_succ
    simp only [executeAll_expression]
    exact .bind (h.evaluate step (g₂.near near₁)) fun _ _ _ _ _ => .pure fun _ _ => .normal

/-- The block of a body and the step does one round in a new scope. -/
lemma extends_round (clock : Clock) (fuel : Nat) (s : Stmt) (step : Expr) :
    Extends (Eval.execute clock fuel (.block [s, .expression step]))
      (Eval.current >>= fun scope => Eval.inScope scope [] (Eval.round clock fuel s step)) := by
  cases fuel with
  | zero => exact .of_exhausted _
  | succ fuel =>
    refine .bind (.refl _) fun scope => .inScope scope [] ?_
    cases fuel with
    | zero => exact .of_exhausted _
    | succ fuel =>
      refine .bind (extends_execute (by omega) s) fun completion => ?_
      cases completion with
      | returned v => exact .refl _
      | normal =>
        -- The list with the step alone needs two units of fuel before the step is evaluated.
        match fuel with
        | 0 | 1 => exact .of_exhausted _
        | fuel + 2 =>
          dsimp only
          rw [executeAll_expression]
          exact .bind (extends_evaluate (by omega) step) fun _ => .refl _

/-- The block of a body and the step matches a round with a body that is alike. -/
lemma round_outside (h : Matched P clock fuel) (near : w.near c c') {s s' : Stmt}
    (alike : s.Alike s') (plain : s.Plain) (step : Expr) :
    Matches P w c c' Completion.Alike (Eval.execute clock fuel (.block [s, .expression step]))
      fun k => Eval.round clock k s' step :=
  .of_extends (extends_round clock fuel s step) <|
    .inScope_left near fun _ _ _ near₁ => h.round near₁ alike plain step

/-- With one more unit, statements that are alike match where names may be declared at once, or none
are. -/
lemma execute_succ (h : Matched P clock fuel) {s s' : Stmt} (alike : s.Alike s')
    (near : w.near c c') (ready : s.Plain ∨ w.same c c') :
    Matches P w c c' Completion.Alike (Eval.execute clock (fuel + 1) s)
      fun k => Eval.execute clock k s' := by
  apply Matches.of_succ
  cases alike with
  | var name initializer =>
    -- A declaration is not plain, so it is executed in scopes with the same bindings.
    have same := ready.resolve_left id
    cases initializer with
    | none => exact .bind (.define same name .nil) fun _ _ _ _ _ => .pure fun _ _ => .normal
    | some e =>
      refine .bind (h.evaluate e near) fun w₁ v v' g₁ related => ?_
      refine .bind (.define (g₁.same same) name related) fun _ _ _ _ _ => ?_
      exact .pure fun _ _ => .normal
  | function name parameters body =>
    have same := ready.resolve_left id
    refine .bind (.closure near name parameters body) fun w₁ v v' g₁ related => ?_
    refine .bind (.define (g₁.same same) name related) fun _ _ _ _ _ => ?_
    exact .pure fun _ _ => .normal
  | expression e => exact .bind (h.evaluate e near) fun _ _ _ _ _ => .pure fun _ _ => .normal
  | print e =>
    refine .bind (h.evaluate e near) fun w₁ v v' g₁ related => ?_
    exact .bind (.print related) fun _ _ _ _ _ => .pure fun _ _ => .normal
  | block body =>
    refine .bind .current fun w₁ p p' g₁ stand => ?_
    obtain ⟨rfl, rfl⟩ := stand
    exact .inScope (g₁.near near) .nil fun w' d d' _ same => h.executeAll body same
  | ifThen condition branch plain =>
    refine .bind (h.evaluate condition near) fun w₁ v v' g₁ related => ?_
    rw [related.truthy_eq]
    cases v'.truthy with
    | true => exact h.execute branch (g₁.near near) (.inl plain)
    | false => exact .pure fun _ _ => .normal
  | ifElse condition thenBranch thenPlain elseBranch elsePlain =>
    refine .bind (h.evaluate condition near) fun w₁ v v' g₁ related => ?_
    rw [related.truthy_eq]
    cases v'.truthy with
    | true => exact h.execute thenBranch (g₁.near near) (.inl thenPlain)
    | false => exact h.execute elseBranch (g₁.near near) (.inl elsePlain)
  | loop condition step body plain =>
    have again := Stmt.Alike.loop condition step body plain
    cases step with
    | none =>
      exact h.goRound near (fun near => h.execute body near (.inl plain))
        fun near => h.execute again near (.inl trivial)
    | some step =>
      simp only [execute_loop_some]
      exact h.goRound near (fun near => h.round near body plain step)
        fun near => h.execute again near (.inl trivial)
  | stepInside condition step body plain =>
    have again := Stmt.Alike.stepInside condition step body plain
    rw [execute_loop_some]
    exact h.goRound near (fun near => h.round_inside near body plain step)
      fun near => h.execute again near (.inl trivial)
  | stepOutside condition step body plain =>
    have again := Stmt.Alike.stepOutside condition step body plain
    simp only [execute_loop_some]
    exact h.goRound near (fun near => h.round_outside near body plain step)
      fun near => h.execute again near (.inl trivial)
  | ret keyword value =>
    cases value with
    | none => exact .pure fun _ _ => .returned .nil
    | some e =>
      refine .bind (h.evaluate e near) fun w₁ v v' g₁ related => ?_
      exact .pure fun w' g => .returned (related.grow g)

/-- With one more unit, statements that are alike one by one match where names may be declared at
once. -/
lemma executeAll_succ (h : Matched P clock fuel) {ss ss' : List Stmt}
    (alike : Stmt.AllAlike ss ss') (same : w.same c c') :
    Matches P w c c' Completion.Alike (Eval.executeAll clock (fuel + 1) ss)
      fun k => Eval.executeAll clock k ss' := by
  apply Matches.of_succ
  cases alike with
  | nil => exact .pure fun _ _ => .normal
  | cons first rest =>
    refine .bind (h.execute first (w.near_of_same same) (.inr same)) fun w₁ a a' g₁ ended => ?_
    cases ended with
    | normal => exact h.executeAll rest (g₁.same same)
    | returned v => exact .pure fun w' g => .returned (v.grow g)

end Matched

/-- Whatever the fuel, computations on what is alike match. -/
lemma matched (P : Pairing) (clock : Clock) (fuel : Nat) : Matched P clock fuel := by
  induction fuel with
  | zero =>
    exact ⟨fun _ _ => .of_exhausted, fun _ _ => .of_exhausted, fun _ _ _ => .of_exhausted,
      fun _ _ _ => .of_exhausted, fun _ _ => .of_exhausted⟩
  | succ fuel ih =>
    exact ⟨fun e near => ih.evaluate_succ near e, fun es near => ih.evaluateAll_succ near es,
      fun paren callee arguments => ih.call_succ paren callee arguments,
      fun alike near ready => ih.execute_succ alike near ready,
      fun alike same => ih.executeAll_succ alike same⟩

end Lox.Eval
