import Lox.Proofs.Machine.Along
import Lox.Proofs.Machine.Plans
import Lox.Proofs.Syntax.Shape

/-!
# What tasks do to the store

Only assignments and declarations change what scopes bind, each with the last step of its own task
and in the current scope; all other tasks leave the store to their parts and to new scopes. A task
is quiet if it declares nothing in the scope in which it is done. The parts of a quiet task are quiet,
since no branch and no body of a loop is a declaration. `Plan.Fits` says both of a plan, and it is
shown once for each construct of the language.
-/

namespace Lox

/-- The task declares nothing in the scope in which it is done. -/
def Task.Quiet : Task → Prop
  | evaluate _ | evaluateAll _ | call _ _ _ => True
  | execute s => s.Proper ∧ s.Plain
  | executeAll _ => False

/-- What becomes of a store with the last step of a task in the scope `c`. -/
inductive Store.Turns (c : ScopeId) (s : Store) : Task → Store → Prop where
  | same (t : Task) :
    Turns c s t s
  | assign (name : Token) (e : Expr) (v : Value) :
    Turns c s (.evaluate (.assign name e)) (s.assign c name.lexeme v).1
  | define {d : Stmt} {name : Token} (v : Value) :
    d.declared? = some name →
    Turns c s (.execute d) (s.define c name.lexeme v)

/-- What becomes of a machine with the last step of a task. -/
structure Machine.Turns (t : Task) (m m' : Machine) : Prop where
  current : m'.current = m.current
  store : m.store.Turns m.current t m'.store

/-- The steps of the plan are those of the task, and all its parts are quiet if the task is. -/
def Plan.Fits {α : Type} (t : Task) : Plan α → Prop
  | last x => Eval.Along (Machine.Turns t) x
  | part u next => (t.Quiet → u.Quiet) ∧ ∀ result, (next result).Fits t
  | inside _ _ _ _ => True

namespace Eval.Along

variable {α β : Type} {t : Task}

/-- A task may end with the machine as it is. -/
lemma turns_refl (m : Machine) : m.Turns t m :=
  ⟨rfl, .same t⟩

/-- What is made of a value does not matter to the machine. -/
lemma bind_pure {R : Machine → Machine → Prop} {x : Eval α} (h : Along R x) (f : α → β) :
    Along R (x >>= fun a => pure (f a)) := by
  intro m m' left
  apply h m
  rw [bind_apply] at left
  cases result : x m with
  | ok a m₁ =>
    rw [result] at left
    exact left
  | error e m₁ =>
    rw [result] at left
    exact left
  | exhausted =>
    rw [result] at left
    cases left

/-- The last step of an assignment assigns. -/
lemma turns_assign (name : Token) (e : Expr) (v : Value) :
    Along (Machine.Turns (.evaluate (.assign name e))) (assign name v) := by
  intro m m' left
  have step : Machine.Turns (.evaluate (.assign name e)) m
      { m with store := (m.store.assign m.current name.lexeme v).1 } :=
    ⟨rfl, .assign name e v⟩
  dsimp only [Eval.assign] at left
  split at left
  · cases left
    exact step
  · cases left
    exact step

/-- The last step of a declaration declares. -/
lemma turns_define {d : Stmt} {name : Token} (declares : d.declared? = some name) (v : Value) :
    Along (Machine.Turns (.execute d)) (define name v) := by
  intro m m' left
  cases left
  exact ⟨rfl, .define v declares⟩

/-- The last step of printing does nothing to the store. -/
lemma turns_print (v : Value) : Along (Machine.Turns t) (print v) := by
  intro m m' left
  cases left
  exact ⟨rfl, .same t⟩

/-- The last step of a call of the clock does nothing to the store. -/
lemma turns_readClock (clock : Clock) : Along (Machine.Turns t) (readClock clock) := by
  intro m m' left
  cases left
  exact ⟨rfl, .same t⟩

/-- A function is made and declared in one go. -/
lemma turns_closure {d : Stmt} {name : Token} (declares : d.declared? = some name)
    (parameters : List Token) (body : List Stmt) :
    Along (Machine.Turns (.execute d)) (closure name parameters body >>= define name) := by
  intro m m' left
  cases left
  exact ⟨rfl, .define _ declares⟩

end Eval.Along

namespace Plan

variable {α : Type} {t : Task}

/-- To give a value back fits any task. -/
lemma Fits.pure (a : α) : (last (pure a)).Fits t :=
  Eval.Along.pure Eval.Along.turns_refl a

/-- An error fits any task. -/
lemma Fits.fail (cause : RuntimeCause) (token : Token) :
    (last (Eval.fail cause token) : Plan α).Fits t :=
  Eval.Along.fail Eval.Along.turns_refl cause token

/-- A task as a whole fits another one if it is quiet whenever that one is. -/
lemma Fits.whole {u : Task} (quiet : t.Quiet → u.Quiet) : (whole u).Fits t :=
  ⟨quiet, fun result => .pure result⟩

/-- A plan that depends on a condition fits if both of its branches do. -/
lemma Fits.ite {c : Prop} [Decidable c] {p q : Plan α} (left : p.Fits t) (right : q.Fits t) :
    (if c then p else q).Fits t := by
  split
  · exact left
  · exact right

/-- What follows a statement fits, also if the statement has returned. -/
lemma Fits.unless {next : Plan Completion} (fits : next.Fits t) (completion : Completion) :
    (next.unless completion).Fits t := by
  cases completion with
  | normal => exact fits
  | returned value => exact .pure _

end Plan

section

variable {t : Task}

/-- An expression is a quiet part. -/
lemma Task.quiet_evaluate (e : Expr) : t.Quiet → (Task.evaluate e).Quiet :=
  fun _ => trivial

/-- The plan of an expression fits its evaluation. -/
lemma Expr.plan_fits (e : Expr) : e.plan.Fits (.evaluate e) := by
  cases e with
  | literal atom => exact .pure _
  | group inner => exact .whole (Task.quiet_evaluate inner)
  | ident name => exact Eval.Along.lookup Eval.Along.turns_refl name
  | assign name value =>
    refine ⟨Task.quiet_evaluate value, fun v => ?_⟩
    exact (Eval.Along.turns_assign name value v).bind_pure fun _ => v
  | unary op token operand =>
    refine ⟨Task.quiet_evaluate operand, fun v => ?_⟩
    exact Eval.Along.atToken Eval.Along.turns_refl token (v.unary op)
  | binary op token left right =>
    refine ⟨Task.quiet_evaluate left, fun u => ⟨Task.quiet_evaluate right, fun v => ?_⟩⟩
    exact Eval.Along.atToken Eval.Along.turns_refl token (u.binary op v)
  | logical op token left right =>
    refine ⟨Task.quiet_evaluate left, fun u => ?_⟩
    exact .ite (.pure u) (.whole (Task.quiet_evaluate right))
  | call callee paren arguments =>
    exact ⟨Task.quiet_evaluate callee, fun f => ⟨fun _ => trivial, fun vs => .whole fun _ => trivial⟩⟩

/-- The plan of some expressions fits any task. -/
lemma Expr.planAll_fits (es : List Expr) : (planAll es).Fits t := by
  cases es with
  | nil => exact .pure _
  | cons e rest => exact ⟨Task.quiet_evaluate e, fun v => ⟨fun _ => trivial, fun vs => .pure _⟩⟩

/-- The plan of a call fits any task. -/
lemma Value.callPlan_fits (clock : Clock) (callee : Value) (arguments : List Value)
    (paren : Token) : (callee.callPlan clock arguments paren).Fits t := by
  cases callee with
  | native builtin serial =>
    cases builtin
    refine .ite (.fail _ _) ?_
    exact (Eval.Along.turns_readClock clock).bind_pure Value.number
  | function f => exact .ite (.fail _ _) trivial
  | _ => exact .fail _ _

/-- A statement declares with its last step only, and its parts do not unless it is a declaration. -/
lemma Stmt.plan_fits (s : Stmt) : s.plan.Fits (.execute s) := by
  cases s with
  | var name initializer =>
    cases initializer with
    | none => exact (Eval.Along.turns_define rfl .nil).bind_pure fun _ => Completion.normal
    | some e =>
      refine ⟨Task.quiet_evaluate e, fun v => ?_⟩
      exact (Eval.Along.turns_define rfl v).bind_pure fun _ => Completion.normal
  | function name parameters body =>
    have declared := (Eval.Along.turns_closure (d := .function name parameters body) rfl parameters
      body).bind_pure fun _ => Completion.normal
    exact declared
  | expression e => exact ⟨Task.quiet_evaluate e, fun _ => .pure _⟩
  | print e =>
    refine ⟨Task.quiet_evaluate e, fun v => ?_⟩
    exact (Eval.Along.turns_print v).bind_pure fun _ => Completion.normal
  | block body => trivial
  | ifThen condition thenBranch =>
    refine ⟨Task.quiet_evaluate condition, fun v => .ite (.whole ?_) (.pure _)⟩
    rintro ⟨proper, -⟩
    cases proper with | ifThen _ proper plain => exact ⟨proper, plain⟩
  | ifElse condition thenBranch elseBranch =>
    refine ⟨Task.quiet_evaluate condition, fun v => .ite (.whole ?_) (.whole ?_)⟩
    · rintro ⟨proper, -⟩
      cases proper with | ifElse _ proper plain _ _ => exact ⟨proper, plain⟩
    · rintro ⟨proper, -⟩
      cases proper with | ifElse _ _ _ proper plain => exact ⟨proper, plain⟩
  | loop condition step body =>
    have again : (Task.execute (.loop condition step body)).Quiet → (Task.execute body).Quiet := by
      rintro ⟨proper, -⟩
      cases proper with | loop _ _ proper plain => exact ⟨proper, plain⟩
    cases step with
    | none =>
      refine ⟨Task.quiet_evaluate condition, fun v => .ite ⟨again, ?_⟩ (.pure _)⟩
      exact .unless (.whole id)
    | some step =>
      refine ⟨Task.quiet_evaluate condition, fun v => .ite ⟨again, ?_⟩ (.pure _)⟩
      exact .unless ⟨Task.quiet_evaluate step, fun _ => .whole id⟩
  | ret keyword value =>
    cases value with
    | none => exact .pure _
    | some e => exact ⟨Task.quiet_evaluate e, fun v => .pure _⟩

/-- The plan of some statements fits their execution. -/
lemma Stmt.planAll_fits (ss : List Stmt) : (planAll ss).Fits (.executeAll ss) := by
  cases ss with
  | nil => exact .pure _
  | cons s rest => exact ⟨False.elim, .unless (.whole False.elim)⟩

/-- The plan of every task fits it. -/
lemma Task.plan_fits (clock : Clock) (t : Task) : (t.plan clock).Fits t := by
  cases t with
  | evaluate e => exact e.plan_fits
  | evaluateAll es => exact Expr.planAll_fits es
  | call callee arguments paren => exact Value.callPlan_fits clock callee arguments paren
  | execute s => exact s.plan_fits
  | executeAll ss => exact Stmt.planAll_fits ss

end

end Lox
