import Lox.Proofs.Machine.Current
import Lox.Proofs.Machine.Plans
import Lox.Proofs.Machine.Scopes

/-!
# Moments of a session

What an interpreter looks like between two steps: idle between two programs, or following the plan
of a task, with a stack of those around it that wait. A session goes from moment to moment, and it
does so also if a program does not end. Wherever the evaluator ends a task, the moments lead there.
-/

namespace Lox

/-- What waits for the result of a task. -/
inductive Stack : Task → Type where
  /-- Nothing does: the task is a whole program. -/
  | program {program : Program} :
    Stack (.executeAll program)
  /-- The rest of another plan, and the values that its task has come by. -/
  | part {t u : Task} (next : t.Result → Plan u.Result) (held : List Value) (around : Stack u) :
    Stack t
  /-- The end of a block or of a call, whose statements run in the scope `inner` and behind which
  `outer` is current again. -/
  | scope {body : List Stmt} {u : Task} (inner outer : ScopeId) (finish : Completion → u.Result)
    (held : List Value) (around : Stack u) :
    Stack (.executeAll body)

/-- How many tasks wait. -/
def Stack.depth {t : Task} : Stack t → Nat
  | .program => 0
  | .part _ _ around => around.depth + 1
  | .scope _ _ _ _ around => around.depth + 1

/-- A moment of a session. -/
inductive Moment where
  /-- Between two programs. -/
  | idle (m : Machine)
  /-- Before the rest of a task, which has come by some values. -/
  | within (t : Task) (rest : Plan t.Result) (held : List Value) (m : Machine) (stack : Stack t)
  /-- Behind a task. -/
  | behind (t : Task) (result : t.Result) (m : Machine) (stack : Stack t)
  /-- Behind a task that has failed. -/
  | failed (t : Task) (e : RuntimeError) (m : Machine) (stack : Stack t)

namespace Moment

/-- The moment at which a task begins. -/
def beginning (clock : Clock) (t : Task) (m : Machine) (stack : Stack t) : Moment :=
  .within t (t.plan clock) t.operands m stack

/-- The next moment of a session. Between two programs it is open what comes. -/
inductive Step (clock : Clock) : Moment → Moment → Prop where
  | start {m : Machine} (program : Program) :
    Step clock (.idle m) (beginning clock (.executeAll program) m .program)
  | result {t : Task} {x : Eval t.Result} {r : t.Result} {held : List Value} {m m' : Machine}
    {stack : Stack t} :
    x m = .ok r m' →
    Step clock (.within t (.last x) held m stack) (.behind t r m' stack)
  | failure {t : Task} {x : Eval t.Result} {e : RuntimeError} {held : List Value} {m m' : Machine}
    {stack : Stack t} :
    x m = .error e m' →
    Step clock (.within t (.last x) held m stack) (.failed t e m' stack)
  | part {t u : Task} {next : t.Result → Plan u.Result} {held : List Value} {m : Machine}
    {stack : Stack u} :
    Step clock (.within u (.part t next) held m stack)
      (beginning clock t m (.part next held stack))
  | inside {u : Task} {parent : Option ScopeId} {bindings : List (String × Value)}
    {body : List Stmt} {finish : Completion → u.Result} {held : List Value} {m : Machine}
    {stack : Stack u} :
    Step clock (.within u (.inside parent bindings body finish) held m stack)
      (beginning clock (.executeAll body) (Eval.opened (parent.getD m.current) bindings m)
        (.scope m.store.scopes.size m.current finish held stack))
  | resume {t u : Task} {r : t.Result} {next : t.Result → Plan u.Result} {held : List Value}
    {m : Machine} {stack : Stack u} :
    Step clock (.behind t r m (.part next held stack))
      (.within u (next r) (t.yields r ++ held) m stack)
  | leave {body : List Stmt} {u : Task} {completion : Completion} {inner outer : ScopeId}
    {finish : Completion → u.Result} {held : List Value} {m : Machine} {stack : Stack u} :
    Step clock (.behind (.executeAll body) completion m (.scope inner outer finish held stack))
      (.behind u (finish completion) { m with current := outer } stack)
  | stop {program : Program} {completion : Completion} {m : Machine} :
    Step clock (.behind (.executeAll program) completion m .program) (.idle m)
  | giveUp {t u : Task} {e : RuntimeError} {next : t.Result → Plan u.Result} {held : List Value}
    {m : Machine} {stack : Stack u} :
    Step clock (.failed t e m (.part next held stack)) (.failed u e m stack)
  | giveUpScope {body : List Stmt} {u : Task} {e : RuntimeError} {inner outer : ScopeId}
    {finish : Completion → u.Result} {held : List Value} {m : Machine} {stack : Stack u} :
    Step clock (.failed (.executeAll body) e m (.scope inner outer finish held stack))
      (.failed u e { m with current := outer } stack)
  | giveUpProgram {program : Program} {e : RuntimeError} {m : Machine} :
    Step clock (.failed (.executeAll program) e m .program) (.idle m)

/-- While a program runs, there is one next moment. -/
lemma Step.unique {clock : Clock} {now next other : Moment} (busy : ∀ m, now ≠ .idle m)
    (step : Step clock now next) (step' : Step clock now other) : next = other := by
  cases step with
  | start => exact absurd rfl (busy _)
  | result ended =>
    cases step' with
    | result ended' =>
      rw [ended] at ended'
      cases ended'
      rfl
    | failure ended' =>
      rw [ended] at ended'
      cases ended'
  | failure ended =>
    cases step' with
    | result ended' =>
      rw [ended] at ended'
      cases ended'
    | failure ended' =>
      rw [ended] at ended'
      cases ended'
      rfl
  | _ =>
    cases step'
    rfl

/-- The second moment is the first one or a later one, whatever the clock says at each step. -/
inductive Leads : Moment → Moment → Prop where
  | refl (now : Moment) :
    Leads now now
  | step {now next later : Moment} (clock : Clock) :
    Leads now next → Step clock next later →
    Leads now later

/-- A moment leads to all that a later one leads to. -/
lemma Leads.trans {now next later : Moment} (first : now.Leads next) (second : next.Leads later) :
    now.Leads later := by
  induction second with
  | refl => exact first
  | step clock _ last ih => exact ih.step clock last

/-- The task behind which `depth` others wait has ended. -/
def Over (depth : Nat) : Moment → Prop
  | idle _ => True
  | within _ _ _ _ _ => False
  | behind _ _ _ stack | failed _ _ _ stack => stack.depth ≤ depth

/-- What has ended at some depth has ended at every greater one. -/
lemma Over.mono {now : Moment} {depth more : Nat} (le : depth ≤ more) (ended : now.Over depth) :
    now.Over more := by
  cases now with
  | idle m => trivial
  | within t rest held m stack => exact ended
  | behind t result m stack => exact Nat.le_trans ended le
  | failed t e m stack => exact Nat.le_trans ended le

/-- The second moment is the first one or a later one, and in between the task behind which `depth`
others wait does not end. -/
inductive LeadsWithin (depth : Nat) : Moment → Moment → Prop where
  | refl (now : Moment) :
    LeadsWithin depth now now
  | step {now next later : Moment} (clock : Clock) :
    LeadsWithin depth now next → ¬ next.Over depth → Step clock next later →
    LeadsWithin depth now later

namespace LeadsWithin

variable {now next later : Moment} {depth more : Nat}

/-- Two stretches in which the task does not end are one. -/
lemma trans (first : LeadsWithin depth now next) (second : LeadsWithin depth next later) :
    LeadsWithin depth now later := by
  induction second with
  | refl => exact first
  | step clock _ busy last ih => exact ih.step clock busy last

/-- While a part of a task goes on, the task does. -/
lemma mono (le : depth ≤ more) (inner : LeadsWithin more now later) :
    LeadsWithin depth now later := by
  induction inner with
  | refl => exact .refl _
  | step clock _ busy last ih => exact ih.step clock (mt (Over.mono le) busy) last

/-- The second moment is the first one or a later one. -/
lemma leads (inner : LeadsWithin depth now later) : now.Leads later := by
  induction inner with
  | refl => exact .refl _
  | step clock _ _ last ih => exact ih.step clock last

end LeadsWithin

/-- The moment at which a task has ended in this way. -/
def ended? (t : Task) (stack : Stack t) : Outcome t.Result → Option Moment
  | .ok result m => some (.behind t result m stack)
  | .error e m => some (.failed t e m stack)
  | .exhausted => none

variable {clock : Clock} {fuel : Nat}

/-- The rest of a plan leads to where its computation ends, if each part does. -/
lemma leadsWithin_of_plan
    (parts : ∀ (t : Task) (m : Machine) (stack : Stack t),
      ∀ later ∈ ended? t stack (t.run clock fuel m),
        LeadsWithin stack.depth (beginning clock t m stack) later)
    {u : Task} (rest : Plan u.Result) (held : List Value) (m : Machine) (stack : Stack u) :
    ∀ later ∈ ended? u stack (rest.run clock fuel m),
      LeadsWithin stack.depth (within u rest held m stack) later := by
  intro later ended
  have outside : stack.depth ≤ stack.depth + 1 := Nat.le_succ _
  have inside : ¬ stack.depth + 1 ≤ stack.depth := Nat.not_succ_le_self _
  induction rest generalizing held m with
  | last x =>
    rw [Plan.run] at ended
    cases outcome : x m with
    | ok r m' =>
      rw [outcome] at ended
      cases ended
      exact .step clock (.refl _) id (.result outcome)
    | error e m' =>
      rw [outcome] at ended
      cases ended
      exact .step clock (.refl _) id (.failure outcome)
    | exhausted =>
      rw [outcome] at ended
      exact nomatch ended
  | part t next ih =>
    have begun : LeadsWithin stack.depth (within u (.part t next) held m stack) _ :=
      .step clock (.refl _) id .part
    have inner := parts t m (.part next held stack)
    rw [Plan.run, Eval.bind_apply] at ended
    cases outcome : t.run clock fuel m with
    | ok r m' =>
      rw [outcome] at ended inner
      have resumed := (begun.trans ((inner _ rfl).mono outside)).step clock inside .resume
      exact resumed.trans (ih r _ m' ended)
    | error e m' =>
      rw [outcome] at ended inner
      cases ended
      exact (begun.trans ((inner _ rfl).mono outside)).step clock inside .giveUp
    | exhausted =>
      rw [outcome] at ended
      exact nomatch ended
  | inside parent bindings body finish =>
    have begun :
        LeadsWithin stack.depth (within u (.inside parent bindings body finish) held m stack) _ :=
      .step clock (.refl _) id .inside
    have inner := parts (.executeAll body) (Eval.opened (parent.getD m.current) bindings m)
      (.scope m.store.scopes.size m.current finish held stack)
    rw [Plan.run, Eval.bind_apply] at ended
    dsimp only [Eval.current] at ended
    rw [Eval.bind_apply, Eval.inScope_apply] at ended
    rw [Task.run] at inner
    cases outcome : Eval.executeAll clock fuel body
        (Eval.opened (parent.getD m.current) bindings m) with
    | ok completion m' =>
      rw [outcome] at ended inner
      cases ended
      exact (begun.trans ((inner _ rfl).mono outside)).step clock inside .leave
    | error e m' =>
      rw [outcome] at ended inner
      cases ended
      exact (begun.trans ((inner _ rfl).mono outside)).step clock inside .giveUpScope
    | exhausted =>
      rw [outcome] at ended
      exact nomatch ended

/-- A task leads to where the evaluator ends it, and does not end before. -/
lemma leadsWithin_of_run (clock : Clock) (fuel : Nat) (t : Task) (m : Machine) (stack : Stack t) :
    ∀ later ∈ ended? t stack (t.run clock fuel m),
      LeadsWithin stack.depth (beginning clock t m stack) later := by
  induction fuel generalizing t m with
  | zero =>
    intro later ended
    rw [Task.run_zero] at ended
    exact nomatch ended
  | succ fuel ih =>
    rw [Task.run_succ]
    exact leadsWithin_of_plan ih (t.plan clock) t.operands m stack

/-- A task leads to where the evaluator ends it. -/
lemma leads_of_run (clock : Clock) (fuel : Nat) (t : Task) (m : Machine) (stack : Stack t) :
    ∀ later ∈ ended? t stack (t.run clock fuel m), (beginning clock t m stack).Leads later :=
  fun later ended => (leadsWithin_of_run clock fuel t m stack later ended).leads

/-- A session goes from before a program to what the program leaves. -/
lemma leads_of_interpret {program : Program} {m m' : Machine}
    (left : m' ∈ (m.interpret clock fuel program).machine?) : (idle m).Leads (idle m') := by
  have begun := (Leads.refl (idle m)).step clock (.start program)
  have ran := leads_of_run clock fuel (.executeAll program) m .program
  rw [Machine.interpret] at left
  rw [Task.run] at ran
  cases outcome : Eval.executeAll clock fuel program m with
  | ok completion after =>
    rw [outcome] at left ran
    cases left
    exact (begun.trans (ran _ rfl)).step clock .stop
  | error e after =>
    rw [outcome] at left ran
    cases left
    exact (begun.trans (ran _ rfl)).step clock .giveUpProgram
  | exhausted =>
    rw [outcome] at left
    cases left

/-- A session comes to every machine that programs leave. -/
lemma leads_of_reached {m : Machine} (reached : m.Reached) : (idle .initial).Leads (idle m) := by
  induction reached with
  | initial => exact .refl _
  | interpret _ left ih => exact ih.trans (leads_of_interpret left)

end Moment

end Lox
