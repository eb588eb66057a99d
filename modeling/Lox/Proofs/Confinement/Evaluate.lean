import Lox.Proofs.Confinement.Rules
import Lox.Proofs.Machine.Plans

/-!
# Granted code stays within its grant

`Plan.Confined` says of a plan that its steps, its parts and its new scopes stay within a grant. It is
shown once for each construct of the language, for code that is granted, and `Eval.confined` follows.
What a computation can reach need not be followed while it runs: the grant is fixed, with all scopes
that are still to come in it.

Two clocks are told apart by host functions only. Where none may be held, a computation does the very
same with both.
-/

namespace Lox

namespace Task

variable {g : Grant}

/-- The task is about granted code and values. -/
def Within (g : Grant) : Task → Prop
  | evaluate e => ∀ t ∈ e.tokens, g.mentions t
  | evaluateAll es => ∀ t ∈ Expr.tokensAll es, g.mentions t
  | call callee arguments paren =>
    callee.Within g ∧ (∀ v ∈ arguments, v.Within g) ∧ g.mentions paren
  | execute s => ∀ t ∈ s.tokens, g.mentions t
  | executeAll ss => ∀ t ∈ Stmt.tokensAll ss, g.mentions t

/-- The values in the result are within the grant. -/
def ResultWithin (g : Grant) : (t : Task) → t.Result → Prop
  | evaluate _, value => value.Within g
  | evaluateAll _, values => ∀ v ∈ values, v.Within g
  | call _ _ _, value => value.Within g
  | execute _, completion => completion.Within g
  | executeAll _, completion => completion.Within g

end Task

namespace Plan

variable {α : Type} {g : Grant} {start : Store} {Q : α → Prop}

/-- The steps of the plan are confined, its tasks and what it binds in new scopes are within the
grant, and so is what it makes of their results. -/
def Confined (g : Grant) (start : Store) (Q : α → Prop) : Plan α → Prop
  | last x => Eval.Confined g start Q x x
  | part t next =>
    t.Within g ∧ ∀ result, t.ResultWithin g result → (next result).Confined g start Q
  | inside parent bindings body finish =>
    (∀ p ∈ parent, g.enters p) ∧ (∀ b ∈ bindings, g.names b.1 ∧ b.2.Within g) ∧
      (∀ t ∈ Stmt.tokensAll body, g.mentions t) ∧
      ∀ completion, completion.Within g → Q (finish completion)

/-- The scope around the new one of a confined plan is granted. -/
lemma enters_getD {parent : Option ScopeId} {c : ScopeId} (carried : ∀ p ∈ parent, g.enters p)
    (inside : g.enters c) : g.enters (parent.getD c) := by
  cases parent with
  | none => exact inside
  | some p => exact carried p rfl

/-- A granted task is a confined plan of its own. -/
lemma Confined.whole {t : Task} (granted : t.Within g) :
    (Plan.whole t).Confined g start (t.ResultWithin g) :=
  ⟨granted, fun _ inside => Eval.Confined.pure inside⟩

/-- A plan that depends on a condition is confined if both of its branches are. -/
lemma Confined.ite {c : Prop} [Decidable c] {p q : Plan α} (left : p.Confined g start Q)
    (right : q.Confined g start Q) : (if c then p else q).Confined g start Q := by
  split
  · exact left
  · exact right

/-- What follows a statement is confined, also if the statement has returned and nothing follows. -/
lemma Confined.unless {next : Plan Completion}
    (confined : next.Confined g start (Completion.Within g)) {completion : Completion}
    (inside : completion.Within g) :
    (next.unless completion).Confined g start (Completion.Within g) := by
  cases completion with
  | normal => exact confined
  | returned value => exact Eval.Confined.pure inside

end Plan

section

variable {g : Grant} {start : Store}

/-- The plan of an expression whose tokens are granted is confined. -/
lemma Expr.plan_confined {e : Expr} (granted : ∀ t ∈ e.tokens, g.mentions t) :
    e.plan.Confined g start (Value.Within g) := by
  cases e with
  | literal atom => exact Eval.Confined.pure atom.value_within
  | group inner => exact Plan.Confined.whole (t := .evaluate inner) granted
  | ident name => exact Eval.Confined.lookup (granted name List.mem_cons_self)
  | assign name value =>
    obtain ⟨mentioned, inner⟩ := List.forall_mem_cons.mp granted
    refine ⟨inner, fun v inside => ?_⟩
    exact Eval.Confined.bind (.assign mentioned inside) fun _ _ => .pure inside
  | unary op token operand =>
    obtain ⟨mentioned, inner⟩ := List.forall_mem_cons.mp granted
    exact ⟨inner, fun v inside => Eval.Confined.atToken mentioned (inside.unary op)⟩
  | binary op token left right =>
    obtain ⟨mentioned, both⟩ := List.forall_mem_cons.mp granted
    obtain ⟨first, second⟩ := List.forall_mem_append.mp both
    refine ⟨first, fun u inside => ⟨second, fun v inside' => ?_⟩⟩
    exact Eval.Confined.atToken mentioned (inside.binary inside' op)
  | logical op token left right =>
    obtain ⟨first, second⟩ := List.forall_mem_append.mp (List.forall_mem_cons.mp granted).2
    refine ⟨first, fun u inside => .ite (Eval.Confined.pure inside) ?_⟩
    exact Plan.Confined.whole (t := .evaluate right) second
  | call callee paren arguments =>
    obtain ⟨mentioned, both⟩ := List.forall_mem_cons.mp granted
    obtain ⟨first, others⟩ := List.forall_mem_append.mp both
    refine ⟨first, fun f inside => ⟨others, fun vs allInside => ?_⟩⟩
    exact Plan.Confined.whole (t := .call f vs paren) ⟨inside, allInside, mentioned⟩

/-- The plan of some expressions is confined, and their values are within the grant. -/
lemma Expr.planAll_confined {es : List Expr} (granted : ∀ t ∈ Expr.tokensAll es, g.mentions t) :
    (planAll es).Confined g start fun vs => ∀ v ∈ vs, v.Within g := by
  cases es with
  | nil => exact Eval.Confined.pure (List.forall_mem_nil _)
  | cons e rest =>
    obtain ⟨first, others⟩ := List.forall_mem_append.mp granted
    refine ⟨first, fun v inside => ⟨others, fun vs allInside => ?_⟩⟩
    exact Eval.Confined.pure (List.forall_mem_cons.mpr ⟨inside, allInside⟩)

/-- A function of granted code has granted parameters and a granted body. -/
lemma Value.callPlan_confined {clock : Clock} {callee : Value} {arguments : List Value}
    {paren : Token} (inside : callee.Within g) (allInside : ∀ v ∈ arguments, v.Within g)
    (mentioned : g.mentions paren) :
    (callee.callPlan clock arguments paren).Confined g start (Value.Within g) := by
  cases callee with
  | native builtin serial =>
    cases builtin
    refine .ite (Eval.Confined.fail mentioned trivial) ?_
    exact Eval.Confined.bind (.readClock clock) fun _ _ => .pure trivial
  | function f =>
    obtain ⟨entered, code⟩ := inside
    obtain ⟨parameters, body⟩ := List.forall_mem_append.mp (List.forall_mem_cons.mp code).2
    refine .ite (Eval.Confined.fail mentioned trivial) ⟨?_, ?_, body, fun _ ended => ended.value⟩
    · rintro _ ⟨⟩
      exact entered
    · intro b mem
      obtain ⟨isParameter, isArgument⟩ := List.of_mem_zip mem
      obtain ⟨t, mem, same⟩ := List.mem_map.mp isParameter
      exact ⟨same ▸ g.named (parameters t mem), allInside b.2 isArgument⟩
  | _ => exact Eval.Confined.fail mentioned inside

/-- The plan of a statement whose tokens are granted is confined. -/
lemma Stmt.plan_confined {s : Stmt} (granted : ∀ t ∈ s.tokens, g.mentions t) :
    s.plan.Confined g start (Completion.Within g) := by
  have normal : Eval.Confined g start (Completion.Within g) (pure .normal) (pure .normal) :=
    .pure trivial
  have single : ∀ {e : Expr}, (∀ t ∈ Expr.tokensAll (some e).toList, g.mentions t) →
      ∀ t ∈ e.tokens, g.mentions t :=
    fun all t mem => all t (List.mem_append_left _ mem)
  have executed : ∀ {s : Stmt}, (∀ t ∈ s.tokens, g.mentions t) →
      (Plan.whole (.execute s)).Confined g start (Completion.Within g) :=
    fun granted => Plan.Confined.whole granted
  cases s with
  | var name initializer =>
    have inner := (List.forall_mem_cons.mp granted).2
    cases initializer with
    | none => exact Eval.Confined.bind (.define name trivial) fun _ _ => normal
    | some e =>
      refine ⟨single inner, fun v inside => ?_⟩
      exact Eval.Confined.bind (.define name inside) fun _ _ => normal
  | function name parameters body =>
    refine Eval.Confined.bind (.closure granted) fun v inside => ?_
    exact .bind (.define name inside) fun _ _ => normal
  | expression e => exact ⟨granted, fun _ _ => normal⟩
  | print e =>
    refine ⟨granted, fun v _ => ?_⟩
    exact Eval.Confined.bind (.print v) fun _ _ => normal
  | block body => exact ⟨nofun, List.forall_mem_nil _, granted, fun _ ended => ended⟩
  | ifThen condition thenBranch =>
    obtain ⟨first, second⟩ := List.forall_mem_append.mp granted
    exact ⟨first, fun v _ => .ite (executed second) normal⟩
  | ifElse condition thenBranch elseBranch =>
    obtain ⟨first, both⟩ := List.forall_mem_append.mp granted
    obtain ⟨second, third⟩ := List.forall_mem_append.mp both
    exact ⟨first, fun v _ => .ite (executed second) (executed third)⟩
  | loop condition step body =>
    obtain ⟨first, both⟩ := List.forall_mem_append.mp granted
    obtain ⟨second, third⟩ := List.forall_mem_append.mp both
    cases step with
    | none =>
      refine ⟨first, fun v _ => .ite ⟨third, fun completion ended => .unless ?_ ended⟩ normal⟩
      exact executed granted
    | some step =>
      refine ⟨first, fun v _ => .ite ⟨third, fun completion ended => .unless ?_ ended⟩ normal⟩
      exact ⟨single second, fun _ _ => executed granted⟩
  | ret keyword value =>
    have inner := (List.forall_mem_cons.mp granted).2
    cases value with
    | none => exact Eval.Confined.pure trivial
    | some e => exact ⟨single inner, fun v inside => Eval.Confined.pure inside⟩

/-- The plan of statements whose tokens are granted is confined. -/
lemma Stmt.planAll_confined {ss : List Stmt} (granted : ∀ t ∈ Stmt.tokensAll ss, g.mentions t) :
    (planAll ss).Confined g start (Completion.Within g) := by
  cases ss with
  | nil => exact Eval.Confined.pure trivial
  | cons s rest =>
    obtain ⟨first, others⟩ := List.forall_mem_append.mp granted
    refine ⟨first, fun completion ended => .unless ?_ ended⟩
    exact Plan.Confined.whole (t := .executeAll rest) others

/-- The plan of a granted task stays within the grant. -/
lemma Task.plan_confined {clock : Clock} {t : Task} (granted : t.Within g) :
    (t.plan clock).Confined g start (t.ResultWithin g) := by
  cases t with
  | evaluate e => exact Expr.plan_confined granted
  | evaluateAll es => exact Expr.planAll_confined granted
  | call callee arguments paren =>
    exact Value.callPlan_confined granted.1 granted.2.1 granted.2.2
  | execute s => exact Stmt.plan_confined granted
  | executeAll ss => exact Stmt.planAll_confined granted

/-- Only who may hold the clock can read it, so only then it matters which clock it is. -/
lemma Task.plan_clock {clock clock' : Clock} (same : g.hosts → clock' = clock) {t : Task}
    (granted : t.Within g) : t.plan clock' = t.plan clock := by
  cases t with
  | call callee arguments paren =>
    cases callee with
    | native builtin serial => rw [same granted.1]
    | _ => rfl
  | _ => rfl

variable {clock clock' : Clock} {fuel : Nat}

/-- A confined plan is followed within the grant if granted tasks are done so. -/
lemma Plan.Confined.run {α : Type} {Q : α → Prop} {plan : Plan α}
    (tasks : ∀ t : Task, t.Within g →
      Eval.Confined g start (t.ResultWithin g) (t.run clock fuel) (t.run clock' fuel))
    (confined : plan.Confined g start Q) :
    Eval.Confined g start Q (plan.run clock fuel) (plan.run clock' fuel) := by
  induction plan with
  | last x => exact confined
  | part t next ih =>
    obtain ⟨granted, behind⟩ := confined
    exact .bind (tasks t granted) fun result inside => ih result (behind result inside)
  | inside parent bindings body finish =>
    obtain ⟨carried, bound, code, ended⟩ := confined
    refine .bind .current fun scope inside => ?_
    have entered := enters_getD carried inside
    refine .bind (.inScope entered (fun b mem => (bound b mem).2) (tasks (.executeAll body) code)) ?_
    exact fun completion inside => .pure (ended completion inside)

/-- Granted tasks are done within the grant, whatever the fuel. -/
lemma Task.run_confined (same : g.hosts → clock' = clock) (fuel : Nat) {t : Task}
    (granted : t.Within g) :
    Eval.Confined g start (t.ResultWithin g) (t.run clock fuel) (t.run clock' fuel) := by
  induction fuel generalizing t with
  | zero =>
    rw [run_zero, run_zero]
    exact .exhausted
  | succ fuel ih =>
    rw [run_succ, run_succ, plan_clock same granted]
    exact (plan_confined granted).run fun t granted => ih granted

/-- A confined plan is followed alike with two clocks if granted tasks are done alike. -/
lemma Plan.Confined.run_clock {α : Type} {Q : α → Prop} {plan : Plan α} {m : Machine}
    (tasks : ∀ t : Task, t.Within g → ∀ m, m.Agree g start m →
      t.run clock' fuel m = t.run clock fuel m)
    (confined : plan.Confined g start Q) (agree : m.Agree g start m) :
    plan.run clock' fuel m = plan.run clock fuel m := by
  induction plan generalizing m with
  | last x => rfl
  | part t next ih =>
    obtain ⟨granted, behind⟩ := confined
    have inside : Eval.Confined g start (t.ResultWithin g) (t.run clock fuel) (t.run clock fuel) :=
      t.run_confined (fun _ => rfl) fuel granted
    rw [Plan.run, Plan.run, Eval.bind_apply, Eval.bind_apply, tasks t granted m agree]
    cases ended : t.run clock fuel m with
    | ok result m₁ =>
      obtain ⟨within, after⟩ := inside.of_ok agree ended
      exact ih result (behind result within) after
    | error e m₁ => rfl
    | exhausted => rfl
  | inside parent bindings body finish =>
    obtain ⟨carried, bound, code, -⟩ := confined
    have opened := agree.opened (enters_getD carried agree.inside) fun b mem => (bound b mem).2
    have same : Eval.inScope (parent.getD m.current) bindings (Eval.executeAll clock' fuel body) m =
        Eval.inScope (parent.getD m.current) bindings (Eval.executeAll clock fuel body) m := by
      rw [Eval.inScope_apply, Eval.inScope_apply]
      exact congrArg (Eval.restored m.current) (tasks (.executeAll body) code _ opened)
    rw [Plan.run, Plan.run, Eval.bind_apply, Eval.bind_apply]
    dsimp only [Eval.current]
    rw [Eval.bind_apply, Eval.bind_apply, same]

/-- Where no host function may be held, granted tasks end in the very same way with two clocks. -/
lemma Task.run_clock (apart : ¬ g.hosts) (fuel : Nat) {t : Task} (granted : t.Within g)
    {m : Machine} (agree : m.Agree g start m) : t.run clock' fuel m = t.run clock fuel m := by
  induction fuel generalizing t m with
  | zero => rw [run_zero, run_zero]
  | succ fuel ih =>
    rw [run_succ, run_succ, plan_clock (fun hosts => (apart hosts).elim) granted]
    exact (plan_confined granted).run_clock (fun t granted m agree => ih granted agree) agree

end

namespace Eval

/-- What granted computations with `fuel` units do. -/
structure AllConfined (g : Grant) (start : Store) (clock clock' : Clock) (fuel : Nat) : Prop where
  evaluate {e : Expr} : (∀ t ∈ e.tokens, g.mentions t) →
    Confined g start (Value.Within g) (evaluate clock fuel e) (evaluate clock' fuel e)
  evaluateAll {es : List Expr} : (∀ t ∈ Expr.tokensAll es, g.mentions t) →
    Confined g start (fun vs => ∀ v ∈ vs, v.Within g) (evaluateAll clock fuel es)
      (evaluateAll clock' fuel es)
  call {callee : Value} {arguments : List Value} {paren : Token} :
    callee.Within g → (∀ v ∈ arguments, v.Within g) → g.mentions paren →
    Confined g start (Value.Within g) (call clock fuel callee arguments paren)
      (call clock' fuel callee arguments paren)
  execute {s : Stmt} : (∀ t ∈ s.tokens, g.mentions t) →
    Confined g start (Completion.Within g) (execute clock fuel s) (execute clock' fuel s)
  executeAll {ss : List Stmt} : (∀ t ∈ Stmt.tokensAll ss, g.mentions t) →
    Confined g start (Completion.Within g) (executeAll clock fuel ss) (executeAll clock' fuel ss)

/-- Granted computations stay within the grant, whatever the fuel. Two clocks make a difference only
where host functions may be held. -/
lemma confined (g : Grant) (start : Store) {clock clock' : Clock}
    (same : g.hosts → clock' = clock) (fuel : Nat) : AllConfined g start clock clock' fuel where
  evaluate {e} granted := Task.run_confined same fuel (t := .evaluate e) granted
  evaluateAll {es} granted := Task.run_confined same fuel (t := .evaluateAll es) granted
  call {callee arguments paren} inside allInside mentioned :=
    Task.run_confined same fuel (t := .call callee arguments paren)
      ⟨inside, allInside, mentioned⟩
  execute {s} granted := Task.run_confined same fuel (t := .execute s) granted
  executeAll {ss} granted := Task.run_confined same fuel (t := .executeAll ss) granted

end Eval

end Lox
