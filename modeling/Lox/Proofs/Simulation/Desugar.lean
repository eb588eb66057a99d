import Lox.Proofs.Simulation.Evaluate
import Lox.Proofs.Simulation.Symmetry
import Lox.Proofs.Syntax.Loops

/-!
# Desugaring keeps what programs do

The parser first produces loops with their steps, which the machine executes as they are:
`Eval.forLoop` spells out how a `for` loop runs, and the block that stands for the loop runs like it.
Desugaring moves every step into a block at the end of its loop's body. The two programs open
different scopes, but scopes that differ are empty, so that the simulation up to empty scopes applies
in both directions.
-/

namespace Lox

/-- Desugared statements are alike if they are so one by one. -/
lemma Stmt.allAlike_desugarAll {ss : List Stmt} (h : ∀ s ∈ ss, s.Alike s.desugar) :
    Stmt.AllAlike ss (desugarAll ss) := by
  induction ss with
  | nil => exact .nil
  | cons s rest ih =>
    have first := h s List.mem_cons_self
    exact .cons first (ih fun t mem => h t (List.mem_cons_of_mem s mem))

/-- A proper statement is like its desugared form. -/
lemma Stmt.Proper.alike_desugar {s : Stmt} (h : s.Proper) : s.Alike s.desugar := by
  induction h with
  | var name initializer => exact .var name initializer
  | function name parameters _ ih => exact .function name parameters (allAlike_desugarAll ih)
  | expression e => exact .expression e
  | print e => exact .print e
  | block _ ih => exact .block (allAlike_desugarAll ih)
  | ifThen condition _ plain ih => exact .ifThen condition ih plain
  | ifElse condition _ thenPlain _ elsePlain thenBranch elseBranch =>
    exact .ifElse condition thenBranch thenPlain elseBranch elsePlain
  | loop condition step _ plain ih =>
    cases step with
    | none => exact .loop condition none ih plain
    | some step => exact .stepInside condition step ih plain
  | ret keyword value => exact .ret keyword value

/-- A program of proper statements is like its desugared form. -/
lemma Program.alike_parse (tokens : List Token) :
    Stmt.AllAlike (Program.parseLoops tokens).1 (Program.parse tokens).1 :=
  Stmt.allAlike_desugarAll fun _ mem => (Program.proper_parseLoops tokens mem).alike_desugar

namespace Eval

variable {α : Type} (clock : Clock)

/-- Whether the condition of a loop holds. A missing one does. -/
def holds (fuel : Nat) : Option Expr → Eval Bool
  | none => pure true
  | some condition => do
    let value ← evaluate clock fuel condition
    return value.truthy

/-- Evaluates the increment of a loop, if there is one. -/
def increment (fuel : Nat) : Option Expr → Eval Unit
  | none => pure ()
  | some step => do
    let _ ← evaluate clock fuel step
    return ()

/-- The rounds of a `for` loop in the current scope: while the condition holds, the body and, unless
it returns, the increment. -/
def forRounds (fuel : Nat) (clauses : ForClauses) (body : Stmt) : Eval Completion :=
  match fuel with
  | 0 => exhausted
  | fuel + 1 => do
    if ← holds clock fuel clauses.condition then
      match ← execute clock fuel body with
      | .normal => do
        increment clock fuel clauses.increment
        forRounds fuel clauses body
      | .returned value => return .returned value
    else return .normal

/-- A `for` loop: the initializer and then the rounds, all in one new scope. -/
def forLoop (fuel : Nat) (clauses : ForClauses) (body : Stmt) : Eval Completion := do
  let scope ← current
  inScope scope [] do
    match clauses.initializer with
    | none => forRounds clock fuel clauses body
    | some initializer =>
      match ← execute clock fuel initializer with
      | .normal => forRounds clock fuel clauses body
      | .returned value => return .returned value

variable {clock}

/-- The condition of a loop statement is evaluated like the condition of the loop. -/
lemma extends_holds (fuel : Nat) (condition : Option Expr) {f : Value → Eval α} {g : Bool → Eval α}
    (behind : ∀ value, Extends (f value) (g value.truthy)) :
    Extends (evaluate clock fuel (condition.getD (.literal (.boolean true))) >>= f)
      (holds clock fuel condition >>= g) := by
  cases condition with
  | some condition =>
    rw [holds, bind_assoc]
    exact .bind (.refl _) behind
  | none =>
    -- A missing condition is written as `true`, which takes a unit of fuel to evaluate.
    cases fuel with
    | zero => exact .of_exhausted _
    | succ fuel => exact behind (.boolean true)

/-- A missing condition is a true one, so what follows the condition of a loop is extended alike. -/
lemma holds_extends (fuel : Nat) (condition : Option Expr) {f : Value → Eval α} {g : Bool → Eval α}
    (behind : ∀ value, Extends (g value.truthy) (f value)) :
    Extends (holds clock fuel condition >>= g)
      (evaluate clock (fuel + 1) (condition.getD (.literal (.boolean true))) >>= f) := by
  cases condition with
  | some condition =>
    rw [holds, bind_assoc]
    exact .bind (extends_evaluate (Nat.le_succ fuel) condition) behind
  | none => exact behind (.boolean true)

/-- A loop statement runs like the rounds of the loop. -/
lemma extends_forRounds (fuel : Nat) (clauses : ForClauses) (body : Stmt) :
    Extends
      (execute clock fuel
        (.loop (clauses.condition.getD (.literal (.boolean true))) clauses.increment body))
      (forRounds clock fuel clauses body) := by
  induction fuel with
  | zero => exact .of_exhausted _
  | succ fuel ih =>
    obtain ⟨initializer, condition, step⟩ := clauses
    cases step with
    | none =>
      refine extends_holds fuel condition fun value => ?_
      cases value.truthy with
      | false => exact .refl _
      | true =>
        refine .bind (.refl _) fun completion => ?_
        cases completion with
        | normal => exact ih
        | returned value => exact .refl _
    | some step =>
      refine extends_holds fuel condition fun value => ?_
      cases value.truthy with
      | false => exact .refl _
      | true =>
        refine .bind (.refl _) fun completion => ?_
        cases completion with
        | normal =>
          dsimp only
          rw [increment, bind_assoc]
          exact .bind (.refl _) fun _ => ih
        | returned value => exact .refl _

/-- The rounds of a `for` loop are extended by a loop with a step, which takes a unit more. -/
lemma forRounds_extends (fuel : Nat) (clauses : ForClauses) (body : Stmt) :
    Extends (forRounds clock fuel clauses body)
      (execute clock (fuel + 1)
        (.loop (clauses.condition.getD (.literal (.boolean true))) clauses.increment body)) := by
  induction fuel with
  | zero => exact .of_exhausted _
  | succ fuel ih =>
    obtain ⟨initializer, condition, step⟩ := clauses
    cases step with
    | none =>
      refine holds_extends fuel condition fun value => ?_
      cases value.truthy with
      | false => exact .refl _
      | true =>
        refine .bind (extends_execute (Nat.le_succ fuel) body) fun completion => ?_
        cases completion with
        | normal => exact ih
        | returned value => exact .refl _
    | some step =>
      refine holds_extends fuel condition fun value => ?_
      cases value.truthy with
      | false => exact .refl _
      | true =>
        refine .bind (extends_execute (Nat.le_succ fuel) body) fun completion => ?_
        cases completion with
        | normal =>
          dsimp only
          rw [increment, bind_assoc]
          exact .bind (extends_evaluate (Nat.le_succ fuel) step) fun _ => ih
        | returned value => exact .refl _

/-- A list of one statement runs like the statement. -/
lemma executeAll_single (fuel : Nat) (s : Stmt) :
    executeAll clock (fuel + 2) [s] = execute clock (fuel + 1) s := by
  rw [executeAll]
  funext m
  rw [bind_apply]
  cases execute clock (fuel + 1) s m with
  | ok completion m₁ =>
    cases completion with
    | normal => rfl
    | returned value => rfl
  | error e m₁ => rfl
  | exhausted => rfl

/-- The loop statement at the end of a list runs like the rounds of the loop. -/
lemma extends_forRounds_last (fuel : Nat) (clauses : ForClauses) (body : Stmt) :
    Extends
      (executeAll clock fuel
        [.loop (clauses.condition.getD (.literal (.boolean true))) clauses.increment body])
      (forRounds clock fuel clauses body) := by
  match fuel with
  | 0 | 1 => exact .of_exhausted _
  | fuel + 2 =>
    rw [executeAll_single]
    exact Extends.trans (extends_execute (Nat.le_succ _) _) (extends_forRounds _ clauses body)

/-- The statement that stands for a `for` loop runs like the loop. -/
lemma extends_forLoop (fuel : Nat) (clauses : ForClauses) (body : Stmt) :
    Extends (execute clock fuel (clauses.statement body)) (forLoop clock fuel clauses body) := by
  cases fuel with
  | zero => exact .of_exhausted _
  | succ fuel =>
    -- The scopes are the same: the block that stands for the loop opens the one of the loop.
    refine .bind (.refl _) fun scope => .inScope scope [] ?_
    refine Extends.trans (extends_executeAll (Nat.le_succ fuel) _) ?_
    obtain ⟨initializer, condition, step⟩ := clauses
    cases initializer with
    | none => exact extends_forRounds_last (fuel + 1) ⟨none, condition, step⟩ body
    | some s =>
      refine .bind (extends_execute (Nat.le_succ fuel) s) fun completion => ?_
      cases completion with
      | normal =>
        refine Extends.trans (extends_executeAll (Nat.le_succ fuel) _) ?_
        exact extends_forRounds_last (fuel + 1) ⟨some s, condition, step⟩ body
      | returned value => exact .refl _

/-- A `for` loop is extended by the statement that stands for it. -/
lemma forLoop_extends (fuel : Nat) (clauses : ForClauses) (body : Stmt) :
    Extends (forLoop clock fuel clauses body) (execute clock (fuel + 4) (clauses.statement body)) := by
  -- At most four units more: for the block, its list, the rest of the list and the loop in it.
  refine .bind (.refl _) fun scope => .inScope scope [] ?_
  obtain ⟨initializer, condition, step⟩ := clauses
  cases initializer with
  | none =>
    refine Extends.trans (forRounds_extends fuel ⟨none, condition, step⟩ body) ?_
    refine Extends.trans (extends_execute (Nat.le_succ _) _) ?_
    change Extends _ (executeAll clock (fuel + 3) [_])
    rw [executeAll_single]
    exact .refl _
  | some s =>
    refine .bind (extends_execute (Nat.le_add_right fuel 2) s) fun completion => ?_
    cases completion with
    | normal =>
      refine Extends.trans (forRounds_extends fuel ⟨some s, condition, step⟩ body) ?_
      change Extends _ (executeAll clock (fuel + 2) [_])
      rw [executeAll_single]
      exact .refl _
    | returned value => exact .refl _

/-- The statement that stands for a `for` loop ends as the loop does, and only so. -/
lemma ends_forLoop_iff (clauses : ForClauses) (body : Stmt) (m : Machine) {o : Outcome Completion}
    (ended : o ≠ .exhausted) :
    (∃ fuel, execute clock fuel (clauses.statement body) m = o) ↔
      ∃ fuel, forLoop clock fuel clauses body m = o := by
  constructor
  · rintro ⟨fuel, rfl⟩
    exact ⟨fuel, extends_forLoop fuel clauses body m ended⟩
  · rintro ⟨fuel, rfl⟩
    exact ⟨fuel + 4, forLoop_extends fuel clauses body m ended⟩

end Eval

/-- Machines on which programs may be started side by side: up to empty scopes, they are in one
state. -/
structure Machine.Beside (w : World) (m m' : Machine) : Prop where
  same : w.same m.current m'.current
  alike : m.Alike .emptyScopes w m.current m'.current m'

/-- Machines that have done nothing yet may be started side by side. -/
lemma Machine.Beside.initial : Machine.Beside .globals .initial .initial where
  same := ⟨rfl, rfl⟩
  alike := ⟨.initial, rfl, rfl, .nil, rfl, rfl⟩

/-- Machines that are alike in scopes with the same bindings may be used side by side. -/
lemma Machine.Beside.of_alike {w : World} {c c' : ScopeId} {m m' : Machine} (same : w.same c c')
    (alike : m.Alike .emptyScopes w c c' m') : Machine.Beside w m m' := by
  obtain rfl := alike.current
  obtain rfl := alike.current'
  exact ⟨same, alike⟩

/-- Machines may be started side by side the other way round. -/
lemma Machine.Beside.flip {w : World} {m m' : Machine} (h : Machine.Beside w m m') :
    Machine.Beside w.flip m' m :=
  ⟨h.same, h.alike.flip⟩

/-- Runs that print the same lines and have the same result: they end normally, they return values
that are alike, or they fail for the same reason at the same token, which reads the same. The
machines may be used side by side again. -/
inductive Outcome.EndsAlike : Outcome Completion → Outcome Completion → Prop where
  | normal {w : World} {m m' : Machine} :
    Machine.Beside w m m' → m.lines = m'.lines →
    EndsAlike (.ok .normal m) (.ok .normal m')
  | returned {w : World} {v v' : Value} {m m' : Machine} :
    Machine.Beside w m m' → m.lines = m'.lines → v.Alike w v' →
    EndsAlike (.ok (.returned v) m) (.ok (.returned v') m')
  | failed {w : World} {e e' : RuntimeError} {m m' : Machine} :
    Machine.Beside w m m' → m.lines = m'.lines → e.Alike w e' → e.token = e'.token →
    e.diagnostic = e'.diagnostic →
    EndsAlike (.error e m) (.error e' m')

/-- Runs that end alike do so the other way round. -/
lemma Outcome.EndsAlike.flip {o o' : Outcome Completion} (h : o.EndsAlike o') : o'.EndsAlike o := by
  cases h with
  | normal beside lines => exact .normal beside.flip lines.symm
  | returned beside lines v => exact .returned beside.flip lines.symm v.flip
  | failed beside lines e token text =>
    exact .failed beside.flip lines.symm e.flip token.symm text.symm

/-- Programs that are alike, started side by side: if the first one ends, the second one ends
alike. -/
lemma Machine.Beside.interpret {w : World} {m m' : Machine} (h : Machine.Beside w m m')
    {program program' : Program} (alike : Stmt.AllAlike program program') (clock : Clock) (fuel : Nat)
    (ended : m.interpret clock fuel program ≠ .exhausted) :
    ∃ fuel', (m.interpret clock fuel program).EndsAlike (m'.interpret clock fuel' program') := by
  obtain ⟨o, w', ⟨k, settled⟩, grows, ends⟩ :=
    (Eval.matched .emptyScopes clock fuel).executeAll alike h.same w m m' (.refl w) h.alike ended
  have right : m'.interpret clock k program' = o := settled k (Nat.le_refl k)
  refine ⟨k, ?_⟩
  rw [right, Machine.interpret]
  generalize Eval.executeAll clock fuel program m = left at ends
  cases ends with
  | ok related alike₁ =>
    have beside := Machine.Beside.of_alike (grows.same h.same) alike₁
    cases related with
    | normal => exact .normal beside alike₁.lines_eq
    | returned v => exact .returned beside alike₁.lines_eq v
  | error failure alike₁ =>
    have beside := Machine.Beside.of_alike (grows.same h.same) alike₁
    exact .failed beside alike₁.lines_eq failure failure.token_eq failure.diagnostic_eq

/-- Desugaring keeps what programs do. A `for` loop, which the parser first makes a statement of its
own, ends as `Eval.forLoop` says and only so; it is desugared to a `while` loop, and the parser does so
with all statements; and if the program with such loops or the desugared program ends, then the other
one, started side by side with it, ends alike. -/
theorem Program.runs_alike_of_desugar (tokens : List Token) (clock : Clock) {w : World}
    {m m' : Machine} (beside : Machine.Beside w m m') :
    (∀ (clauses : ForClauses) (body : Stmt),
      (∀ (m : Machine) (o : Outcome Completion), o ≠ .exhausted →
        ((∃ fuel, Eval.execute clock fuel (clauses.statement body) m = o) ↔
          ∃ fuel, Eval.forLoop clock fuel clauses body m = o)) ∧
      (clauses.statement body).desugar =
        { clauses with initializer := clauses.initializer.map Stmt.desugar }.whileLoop body.desugar) ∧
    (Program.parse tokens).1 = (Program.parseLoops tokens).1.map Stmt.desugar ∧
    (∀ fuel, m.interpret clock fuel (Program.parseLoops tokens).1 ≠ .exhausted →
      ∃ fuel', (m.interpret clock fuel (Program.parseLoops tokens).1).EndsAlike
        (m'.interpret clock fuel' (Program.parse tokens).1)) ∧
    (∀ fuel', m'.interpret clock fuel' (Program.parse tokens).1 ≠ .exhausted →
      ∃ fuel, (m.interpret clock fuel (Program.parseLoops tokens).1).EndsAlike
        (m'.interpret clock fuel' (Program.parse tokens).1)) := by
  -- Being alike is symmetric up to the world, so one simulation serves both directions.
  have alike := Program.alike_parse tokens
  refine ⟨fun clauses body => ⟨fun m o ended => ?_, clauses.desugar_statement body⟩, ?_, ?_, ?_⟩
  · exact Eval.ends_forLoop_iff clauses body m ended
  · rw [Program.parse_eq]
  · intro fuel ended
    exact beside.interpret alike clock fuel ended
  · intro fuel' ended
    obtain ⟨fuel, ends⟩ := beside.flip.interpret alike.symm clock fuel' ended
    exact ⟨fuel, ends.flip⟩

/-- The tokens of `for (var go = true; go; go = false) print go;`, which goes round once. -/
def Program.onceRound : List Token :=
  let token (kind : Kind) (lexeme : String) : Token := ⟨kind, lexeme, none, 1, ⟨0, 0⟩⟩
  [token .kwFor "for", token .leftParen "(", token .kwVar "var", token .identifier "go",
    token .equal "=", token .kwTrue "true", token .semicolon ";", token .identifier "go",
    token .semicolon ";", token .identifier "go", token .equal "=", token .kwFalse "false",
    token .rightParen ")", token .kwPrint "print", token .identifier "go", token .semicolon ";"]

/-- A loop that goes round once ends, and so does the desugared loop. -/
theorem Program.onceRound_runs_alike :
    Machine.Beside .globals .initial .initial ∧
    Machine.initial.interpret (fun _ => 0) 9 (Program.parseLoops Program.onceRound).1 ≠
      .exhausted ∧
    ∃ fuel,
      (Machine.initial.interpret (fun _ => 0) 9
        (Program.parseLoops Program.onceRound).1).EndsAlike
      (Machine.initial.interpret (fun _ => 0) fuel (Program.parse Program.onceRound).1) := by
  have ended : Machine.initial.interpret (fun _ => 0) 9
      (Program.parseLoops Program.onceRound).1 ≠ .exhausted := by
    cbv
    intro cut
    cases cut
  refine ⟨.initial, ended, ?_⟩
  exact (Program.runs_alike_of_desugar Program.onceRound (fun _ => 0) .initial).2.2.1 9 ended

end Lox
