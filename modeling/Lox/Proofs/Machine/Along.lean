import Lox.Proofs.Machine.Scopes
import Mathlib.Data.List.Infix

/-!
# What holds along an execution

A relation between machines that every single step keeps to, and every scope that is opened and
closed again, holds between the machines before and behind any computation, also one that fails.
`Eval.Along` says so of a computation, and `Machine.Kept` of the steps. Printed values, for one, are
never taken back.
-/

namespace Lox

/-- The machine that a computation leaves, unless it was cut off. -/
def Outcome.machine? {α : Type} : Outcome α → Option Machine
  | .ok _ m | .error _ m => some m
  | .exhausted => none

namespace Eval

variable {α β : Type}

/-- The machine that a computation leaves is related to the one it finds. -/
def Along (R : Machine → Machine → Prop) (x : Eval α) : Prop :=
  ∀ m, ∀ m' ∈ (x m).machine?, R m m'

/-- A computation in a new scope leaves the machine that it leaves in the opened one, with the scope
restored. -/
lemma machine?_inScope {parent : ScopeId} {bindings : List (String × Value)} {x : Eval α}
    {m m' : Machine} (left : m' ∈ (inScope parent bindings x m).machine?) :
    ∃ m₁ ∈ (x (opened parent bindings m)).machine?, m' = { m₁ with current := m.current } := by
  rw [inScope_apply] at left
  cases result : x (opened parent bindings m) with
  | ok a m₁ =>
    rw [result] at left
    exact ⟨m₁, rfl, (Option.some.inj left).symm⟩
  | error e m₁ =>
    rw [result] at left
    exact ⟨m₁, rfl, (Option.some.inj left).symm⟩
  | exhausted =>
    rw [result] at left
    cases left

end Eval

/-- A relation to which the steps of computations keep. -/
structure Machine.Kept (R : Machine → Machine → Prop) : Prop where
  refl (m : Machine) : R m m
  trans {m₁ m₂ m₃ : Machine} : R m₁ m₂ → R m₂ m₃ → R m₁ m₃
  define (name : Token) (value : Value) : Eval.Along R (Eval.define name value)
  assign (name : Token) (value : Value) : Eval.Along R (Eval.assign name value)
  print (value : Value) : Eval.Along R (Eval.print value)
  readClock (clock : Clock) : Eval.Along R (Eval.readClock clock)
  closure (name : Token) (parameters : List Token) (body : List Stmt) :
    Eval.Along R (Eval.closure name parameters body)
  inScope {x : Eval Completion} (parent : ScopeId) (bindings : List (String × Value)) :
    Eval.Along R x → Eval.Along R (Eval.inScope parent bindings x)

namespace Eval.Along

variable {α β : Type} {R : Machine → Machine → Prop}

section

variable (refl : ∀ m, R m m)

include refl

/-- A computation that leaves the machine as it is. -/
lemma of_same {x : Eval α} (same : ∀ m, ∀ m' ∈ (x m).machine?, m' = m) : Along R x := by
  intro m m' left
  rw [same m m' left]
  exact refl m

/-- To give a value back keeps to a reflexive relation. -/
protected lemma pure (a : α) : Along R (pure a) :=
  of_same refl fun _ _ left => (Option.some.inj left).symm

/-- An error keeps to a reflexive relation. -/
protected lemma fail (cause : RuntimeCause) (token : Token) :
    Along R (fail cause token : Eval α) :=
  of_same refl fun _ _ left => (Option.some.inj left).symm

/-- An operation on values keeps to a reflexive relation. -/
protected lemma atToken (token : Token) (o : Except RuntimeCause α) : Along R (atToken token o) := by
  cases o with
  | ok a => exact .pure refl a
  | error cause => exact .fail refl cause token

/-- To read a variable keeps to a reflexive relation. -/
protected lemma lookup (name : Token) : Along R (lookup name) := by
  refine of_same refl fun m m' left => ?_
  rw [lookup] at left
  cases found : m.store.get? m.current name.lexeme with
  | some value =>
    rw [found] at left
    exact (Option.some.inj left).symm
  | none =>
    rw [found] at left
    exact (Option.some.inj left).symm

/-- To ask for the current scope keeps to a reflexive relation. -/
protected lemma current : Along R current :=
  of_same refl fun _ _ left => (Option.some.inj left).symm

end

/-- A computation and one behind it keep to a transitive relation if each of them does. -/
lemma bind_of_trans {x : Eval α} {f : α → Eval β}
    (trans : ∀ {m₁ m₂ m₃}, R m₁ m₂ → R m₂ m₃ → R m₁ m₃) (first : Along R x)
    (second : ∀ a, Along R (f a)) : Along R (x >>= f) := by
  intro m m' left
  rw [bind_apply] at left
  have before := first m
  cases result : x m with
  | ok a m₁ =>
    rw [result] at left before
    exact trans (before m₁ rfl) (second a m₁ m' left)
  | error e m₁ =>
    rw [result] at left before
    exact before m' left
  | exhausted =>
    rw [result] at left
    cases left

/-- A computation and one behind it keep to a relation to which all steps keep. -/
protected lemma bind (kept : Machine.Kept R) {x : Eval α} {f : α → Eval β} (first : Along R x)
    (second : ∀ a, Along R (f a)) : Along R (x >>= f) :=
  bind_of_trans kept.trans first second

/-- What is cut off keeps to any relation. -/
lemma exhausted : Along R (exhausted : Eval α) :=
  fun _ _ left => nomatch left

end Eval.Along

namespace Eval

/-- What holds along all computations with `fuel` units. -/
structure AllAlong (R : Machine → Machine → Prop) (clock : Clock) (fuel : Nat) : Prop where
  evaluate (e : Expr) : Along R (evaluate clock fuel e)
  evaluateAll (es : List Expr) : Along R (evaluateAll clock fuel es)
  call (callee : Value) (arguments : List Value) (paren : Token) :
    Along R (call clock fuel callee arguments paren)
  execute (s : Stmt) : Along R (execute clock fuel s)
  executeAll (ss : List Stmt) : Along R (executeAll clock fuel ss)

namespace AllAlong

variable {R : Machine → Machine → Prop} {clock : Clock} {fuel : Nat} (kept : Machine.Kept R)
  (h : AllAlong R clock fuel)

include kept h

/-- With one more unit, the evaluation of an expression keeps to the relation. -/
lemma evaluate_succ (e : Expr) : Along R (Eval.evaluate clock (fuel + 1) e) := by
  cases e with
  | literal atom => exact .pure kept.refl _
  | group inner => exact h.evaluate inner
  | ident name => exact .lookup kept.refl name
  | assign name value =>
    refine .bind kept (h.evaluate value) fun v => ?_
    exact .bind kept (kept.assign name v) fun _ => .pure kept.refl v
  | unary op token operand =>
    exact .bind kept (h.evaluate operand) fun v => .atToken kept.refl token (v.unary op)
  | binary op token left right =>
    refine .bind kept (h.evaluate left) fun v => ?_
    exact .bind kept (h.evaluate right) fun u => .atToken kept.refl token (v.binary op u)
  | logical op token left right =>
    refine .bind kept (h.evaluate left) fun v => ?_
    split
    · exact .pure kept.refl v
    · exact h.evaluate right
  | call callee paren arguments =>
    refine .bind kept (h.evaluate callee) fun v => ?_
    exact .bind kept (h.evaluateAll arguments) fun vs => h.call v vs paren

/-- With one more unit, the evaluation of expressions one after another keeps to the relation. -/
lemma evaluateAll_succ (es : List Expr) : Along R (Eval.evaluateAll clock (fuel + 1) es) := by
  cases es with
  | nil => exact .pure kept.refl _
  | cons e rest =>
    refine .bind kept (h.evaluate e) fun v => ?_
    exact .bind kept (h.evaluateAll rest) fun vs => .pure kept.refl (v :: vs)

/-- With one more unit, a call keeps to the relation. -/
lemma call_succ (callee : Value) (arguments : List Value) (paren : Token) :
    Along R (Eval.call clock (fuel + 1) callee arguments paren) := by
  cases callee with
  | number x => exact .fail kept.refl _ paren
  | string s => exact .fail kept.refl _ paren
  | nil => exact .fail kept.refl _ paren
  | boolean b => exact .fail kept.refl _ paren
  | native builtin serial =>
    cases builtin
    rw [Eval.call]
    split
    · exact .fail kept.refl _ paren
    · exact .bind kept (kept.readClock clock) fun x => .pure kept.refl (Value.number x)
  | function f =>
    rw [Eval.call]
    split
    · exact .fail kept.refl _ paren
    · refine .bind kept (kept.inScope _ _ (h.executeAll f.body)) fun completion => ?_
      exact .pure kept.refl completion.value

/-- With one more unit, the execution of a statement keeps to the relation. -/
lemma execute_succ (s : Stmt) : Along R (Eval.execute clock (fuel + 1) s) := by
  have normal : Along R (pure Completion.normal) := .pure kept.refl _
  cases s with
  | var name initializer =>
    cases initializer with
    | none => exact .bind kept (kept.define name .nil) fun _ => normal
    | some e =>
      refine .bind kept (h.evaluate e) fun v => ?_
      exact .bind kept (kept.define name v) fun _ => normal
  | function name parameters body =>
    refine .bind kept (kept.closure name parameters body) fun f => ?_
    exact .bind kept (kept.define name f) fun _ => normal
  | expression e => exact .bind kept (h.evaluate e) fun _ => normal
  | print e =>
    refine .bind kept (h.evaluate e) fun v => ?_
    exact .bind kept (kept.print v) fun _ => normal
  | block body =>
    exact .bind kept (.current kept.refl) fun scope => kept.inScope scope [] (h.executeAll body)
  | ifThen condition thenBranch =>
    refine .bind kept (h.evaluate condition) fun v => ?_
    split
    · exact h.execute thenBranch
    · exact normal
  | ifElse condition thenBranch elseBranch =>
    refine .bind kept (h.evaluate condition) fun v => ?_
    split
    · exact h.execute thenBranch
    · exact h.execute elseBranch
  | loop condition step body =>
    cases step with
    | none =>
      refine .bind kept (h.evaluate condition) fun v => ?_
      split
      · refine .bind kept (h.execute body) fun completion => ?_
        cases completion with
        | normal => exact h.execute (.loop condition none body)
        | returned v => exact .pure kept.refl _
      · exact normal
    | some step =>
      refine .bind kept (h.evaluate condition) fun v => ?_
      split
      · refine .bind kept (h.execute body) fun completion => ?_
        cases completion with
        | normal =>
          exact .bind kept (h.evaluate step) fun _ => h.execute (.loop condition (some step) body)
        | returned v => exact .pure kept.refl _
      · exact normal
  | ret keyword value =>
    cases value with
    | none => exact .pure kept.refl _
    | some e => exact .bind kept (h.evaluate e) fun v => .pure kept.refl _

/-- With one more unit, the execution of statements one after another keeps to the relation. -/
lemma executeAll_succ (ss : List Stmt) : Along R (Eval.executeAll clock (fuel + 1) ss) := by
  cases ss with
  | nil => exact .pure kept.refl _
  | cons s rest =>
    refine .bind kept (h.execute s) fun completion => ?_
    cases completion with
    | normal => exact h.executeAll rest
    | returned v => exact .pure kept.refl _

end AllAlong

/-- What the steps keep to holds along all computations, whatever the fuel. -/
lemma allAlong {R : Machine → Machine → Prop} (kept : Machine.Kept R) (clock : Clock) (fuel : Nat) :
    AllAlong R clock fuel := by
  induction fuel with
  | zero =>
    exact ⟨fun _ => .exhausted, fun _ => .exhausted, fun _ _ _ => .exhausted, fun _ => .exhausted,
      fun _ => .exhausted⟩
  | succ fuel ih =>
    exact ⟨ih.evaluate_succ kept, ih.evaluateAll_succ kept, ih.call_succ kept,
      ih.execute_succ kept, ih.executeAll_succ kept⟩

end Eval

namespace Machine

/-- All that was printed before is still printed, and before anything else. -/
def PrintsOn (m m' : Machine) : Prop :=
  m.printed.toList <+: m'.printed.toList

/-- No step takes back what was printed. -/
lemma kept_printsOn : Kept PrintsOn where
  refl m := List.prefix_refl _
  trans := List.IsPrefix.trans
  define name value m m' left := by
    cases left
    exact List.prefix_refl _
  assign name value m m' left := by
    obtain ⟨store, current, printed, readings, serial⟩ := m
    dsimp only [Eval.assign] at left
    split at left
    · cases left
      exact List.prefix_refl _
    · cases left
      exact List.prefix_refl _
  print value m m' left := by
    cases left
    rw [PrintsOn, Array.toList_push]
    exact List.prefix_append _ _
  readClock clock m m' left := by
    cases left
    exact List.prefix_refl _
  closure name parameters body m m' left := by
    cases left
    exact List.prefix_refl _
  inScope parent bindings inner m m' left := by
    obtain ⟨m₁, inside, rfl⟩ := Eval.machine?_inScope left
    exact inner (Eval.opened parent bindings m) m₁ inside

variable {clock : Clock} {fuel : Nat} {program : Program} {m m' : Machine} {o : Outcome Completion}

/-- A program takes back nothing that was printed before, also if it fails. -/
lemma printsOn_of_interpret (ended : m.interpret clock fuel program = o) (left : m' ∈ o.machine?) :
    m.PrintsOn m' := by
  subst ended
  exact (Eval.allAlong kept_printsOn clock fuel).executeAll program m m' left

end Machine

end Lox
