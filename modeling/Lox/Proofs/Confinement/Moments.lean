import Lox.Proofs.Confinement.Evaluate
import Lox.Proofs.Machine.Effects
import Lox.Proofs.Machine.Throughout

/-!
# Moments within a grant

While granted code runs, nothing beyond the grant is held at any moment: not as an operand, an
argument or a result, nor in an error. Names that are not granted are neither declared nor assigned
to, so all scopes bind them to what they bound them to before. A step keeps to that, by one case for
each way in which a session goes on, and so does a run.
-/

namespace Lox

section

variable {g : Grant} {start : Store} {cause : RuntimeCause}

/-- The values that an error is about are within the grant if its cause is. -/
lemma RuntimeCause.Within.values (h : cause.Within g) : ∀ v ∈ cause.values, v.Within g := by
  cases cause with
  | notNumber v | notCallable v => exact List.forall_mem_singleton.mpr h
  | notNumbers u v | notAddable u v =>
    exact List.forall_mem_cons.mpr ⟨h.1, List.forall_mem_singleton.mpr h.2⟩
  | undefinedVariable name | wrongArity actual expected => exact List.forall_mem_nil _

/-- The values in the way a statement has ended are within the grant if it is. -/
lemma Completion.Within.values {completion : Completion} (h : completion.Within g) :
    ∀ v ∈ completion.values, v.Within g := by
  cases completion with
  | normal => exact List.forall_mem_nil _
  | returned v => exact List.forall_mem_singleton.mpr h

namespace Task

variable {t : Task}

/-- The values that a granted task has at its start are within the grant. -/
lemma Within.operands (h : t.Within g) : ∀ v ∈ t.operands, v.Within g := by
  cases t with
  | call callee arguments paren => exact List.forall_mem_cons.mpr ⟨h.1, h.2.1⟩
  | _ => exact List.forall_mem_nil _

/-- The values that a result yields are within the grant if it is. -/
lemma ResultWithin.yields {result : t.Result} (h : t.ResultWithin g result) :
    ∀ v ∈ t.yields result, v.Within g := by
  cases t with
  | evaluate e => exact List.forall_mem_singleton.mpr h
  | evaluateAll es => exact h
  | call callee arguments paren => exact List.forall_mem_singleton.mpr h
  | execute s => exact Completion.Within.values h
  | executeAll ss => exact Completion.Within.values h

/-- What is left of a granted task is one of its plans and stays within the grant. -/
structure Remains (g : Grant) (start : Store) (t : Task) (rest : Plan t.Result) : Prop where
  granted : t.Within g
  fits : rest.Fits t
  confined : rest.Confined g start (t.ResultWithin g)

/-- Before its first step, a granted task has its whole plan left. -/
lemma Within.remains (h : t.Within g) (clock : Clock) : t.Remains g start (t.plan clock) :=
  ⟨h, t.plan_fits clock, plan_confined h⟩

end Task

end

namespace Store

/-- All scopes bind the names that are not granted to what they bound them to before. -/
def Spares (g : Grant) (s s' : Store) : Prop :=
  ∀ name, ¬ g.names name → ∀ c, (s'.bindings c).get? name = (s.bindings c).get? name

variable {g : Grant} {s s' s'' : Store} {c : ScopeId}

namespace Spares

/-- A store spares what is outside in itself. -/
lemma refl (s : Store) : s.Spares g s :=
  fun _ _ _ => rfl

/-- A store spares what is outside if it does so by way of another one. -/
lemma trans (first : s.Spares g s') (second : s'.Spares g s'') : s.Spares g s'' :=
  fun name other c => (second name other c).trans (first name other c)

/-- To bind a granted name spares all names that are not. -/
lemma define {name : String} (named : g.names name) (c : ScopeId) (v : Value) :
    s.Spares g (s.define c name v) := by
  intro key other d
  have ne : name ≠ key := fun same => other (same ▸ named)
  by_cases here : d = c
  · subst here
    rcases Nat.lt_or_ge d s.scopes.size with lt | ge
    · rw [bindings_define_self lt, Bindings.get?_set, if_neg ne]
    · rw [bindings_define_of_size_le ge]
  · rw [bindings_define_of_ne here]

/-- To bind several granted names spares all names that are not. -/
lemma defineAll {bindings : List (String × Value)} (named : ∀ b ∈ bindings, g.names b.1)
    (c : ScopeId) : s.Spares g (s.defineAll c bindings) := by
  induction bindings generalizing s with
  | nil => exact refl s
  | cons b rest ih =>
    obtain ⟨first, others⟩ := List.forall_mem_cons.mp named
    exact (define first c b.2).trans (ih others)

/-- To assign to a granted name, wherever it is bound, spares all names that are not. -/
lemma assign {name : String} (named : g.names name) (c : ScopeId) (v : Value) :
    s.Spares g (s.assign c name v).1 := by
  rcases s.assign_cases c name v with same | ⟨d, same⟩
  · rw [same]
    exact refl s
  · rw [same]
    exact define named d v

/-- A new scope binds no names yet. -/
lemma child (s : Store) (p : ScopeId) : s.Spares g (s.child p).2 := by
  intro name _ d
  rw [bindings_child]

end Spares

end Store

/-- A declaration is about its own name. -/
lemma Stmt.mem_tokens_of_declared {d : Stmt} {name : Token} (declares : d.declared? = some name) :
    name ∈ d.tokens := by
  cases d with
  | var | function =>
    cases declares
    exact List.mem_cons_self
  | _ => cases declares

/-- The last step of a granted task declares and assigns to granted names only. -/
lemma Store.Turns.spares {g : Grant} {s s' : Store} {c : ScopeId} {t : Task}
    (h : s.Turns c t s') (granted : t.Within g) : s.Spares g s' := by
  cases h with
  | same => exact .refl s
  | assign name e v => exact .assign (g.named (granted name List.mem_cons_self)) c v
  | define v declares =>
    exact .define (g.named (granted _ (Stmt.mem_tokens_of_declared declares))) c v

namespace Stack

/-- What waits on the stack stays within the grant. -/
def Within (g : Grant) (start : Store) {t : Task} : Stack t → Prop
  | program => True
  | @part t u next held around =>
    (∀ result, t.ResultWithin g result → u.Remains g start (next result)) ∧
      (∀ v ∈ held, v.Within g) ∧ around.Within g start
  | @scope _ u _ outer finish held around =>
    g.enters outer ∧
      (∀ completion, completion.Within g → u.ResultWithin g (finish completion)) ∧
      (∀ v ∈ held, v.Within g) ∧ around.Within g start

/-- The values that wait on the stack are within the grant. -/
lemma Within.values {g : Grant} {start : Store} {t : Task} {stack : Stack t}
    (h : stack.Within g start) : ∀ v ∈ stack.values, v.Within g := by
  induction stack with
  | program => exact List.forall_mem_nil _
  | part next held around ih =>
    obtain ⟨-, within, others⟩ := h
    exact List.forall_mem_append.mpr ⟨within, ih others⟩
  | scope inner outer finish held around ih =>
    obtain ⟨-, -, within, others⟩ := h
    exact List.forall_mem_append.mpr ⟨within, ih others⟩

end Stack

namespace Moment

/-- What is held at a moment and what comes are within the grant. -/
inductive Within (g : Grant) (start : Store) : Moment → Prop where
  | idle {m : Machine} :
    m.Agree g start m →
    Within g start (.idle m)
  | within {t : Task} {rest : Plan t.Result} {held : List Value} {m : Machine} {stack : Stack t} :
    m.Agree g start m → t.Remains g start rest → (∀ v ∈ held, v.Within g) →
    stack.Within g start →
    Within g start (.within t rest held m stack)
  | behind {t : Task} {result : t.Result} {m : Machine} {stack : Stack t} :
    m.Agree g start m → t.ResultWithin g result → stack.Within g start →
    Within g start (.behind t result m stack)
  | failed {t : Task} {e : RuntimeError} {m : Machine} {stack : Stack t} :
    m.Agree g start m → e.cause.Within g → stack.Within g start →
    Within g start (.failed t e m stack)

variable {g : Grant} {start : Store} {clock : Clock} {now next later : Moment} {depth : Nat}

/-- The store of a moment within the grant is a granted one. -/
lemma Within.machine (h : now.Within g start) : now.machine.Agree g start now.machine := by
  cases h <;> assumption

/-- The values that are held at a moment within the grant are so too. -/
lemma Within.values (h : now.Within g start) : ∀ v ∈ now.values, v.Within g := by
  cases h with
  | idle => exact List.forall_mem_nil _
  | within _ _ held stack => exact List.forall_mem_append.mpr ⟨held, stack.values⟩
  | behind _ result stack => exact List.forall_mem_append.mpr ⟨result.yields, stack.values⟩
  | failed _ cause stack => exact List.forall_mem_append.mpr ⟨cause.values, stack.values⟩

/-- A granted task begins within the grant if what waits behind it is. -/
lemma beginning_within {t : Task} {m : Machine} {stack : Stack t} (agree : m.Agree g start m)
    (granted : t.Within g) (waiting : stack.Within g start) :
    (beginning clock t m stack).Within g start :=
  .within agree (granted.remains clock) granted.operands waiting

/-- As long as no other program begins, a step stays within the grant and spares what is outside. -/
lemma Step.within (step : Step clock now next) (busy : ¬ now.Over depth)
    (h : now.Within g start) :
    next.Within g start ∧ now.machine.store.Spares g next.machine.store := by
  cases step with
  | start => exact absurd trivial busy
  | result ended =>
    cases h with | within agree remains _ waiting =>
    obtain ⟨result, after⟩ := remains.confined.of_ok agree ended
    have turns := remains.fits _ _ (congrArg Outcome.machine? ended)
    exact ⟨.behind after result waiting, turns.store.spares remains.granted⟩
  | failure ended =>
    cases h with | within agree remains _ waiting =>
    obtain ⟨cause, after⟩ := remains.confined.of_error agree ended
    have turns := remains.fits _ _ (congrArg Outcome.machine? ended)
    exact ⟨.failed after cause waiting, turns.store.spares remains.granted⟩
  | part =>
    cases h with | within agree remains held waiting =>
    obtain ⟨granted, behind⟩ := remains.confined
    refine ⟨beginning_within agree granted ⟨fun result inside => ?_, held, waiting⟩, .refl _⟩
    exact ⟨remains.granted, remains.fits.2 result, behind result inside⟩
  | @inside u parent bindings body finish held m stack =>
    cases h with | within agree remains held waiting =>
    obtain ⟨carried, bound, code, ended⟩ := remains.confined
    have opened := agree.opened (Plan.enters_getD carried agree.inside) fun b mem => (bound b mem).2
    refine ⟨beginning_within opened code ⟨agree.inside, ended, held, waiting⟩, ?_⟩
    exact (Store.Spares.child m.store _).trans (.defineAll (fun b mem => (bound b mem).1) _)
  | resume =>
    cases h with | behind agree result waiting =>
    obtain ⟨remains, held, waiting⟩ := waiting
    refine ⟨.within agree (remains _ result) ?_ waiting, .refl _⟩
    exact List.forall_mem_append.mpr ⟨result.yields, held⟩
  | leave =>
    cases h with | behind agree completion waiting =>
    obtain ⟨entered, finished, -, waiting⟩ := waiting
    exact ⟨.behind (agree.back entered) (finished _ completion) waiting, .refl _⟩
  | stop =>
    cases h with | behind agree _ _ =>
    exact ⟨.idle agree, .refl _⟩
  | giveUp =>
    cases h with | failed agree cause waiting =>
    exact ⟨.failed agree cause waiting.2.2, .refl _⟩
  | giveUpScope =>
    cases h with | failed agree cause waiting =>
    obtain ⟨entered, -, -, waiting⟩ := waiting
    exact ⟨.failed (agree.back entered) cause waiting, .refl _⟩
  | giveUpProgram =>
    cases h with | failed agree _ _ =>
    exact ⟨.idle agree, .refl _⟩

/-- So does a run. -/
lemma LeadsWithin.within (leads : LeadsWithin depth now later) (h : now.Within g start) :
    later.Within g start ∧ now.machine.store.Spares g later.machine.store := by
  induction leads with
  | refl => exact ⟨h, .refl _⟩
  | step clock _ busy step ih =>
    obtain ⟨between, spares⟩ := ih
    obtain ⟨after, spares'⟩ := step.within busy between
    exact ⟨after, spares.trans spares'⟩

end Moment

end Lox
