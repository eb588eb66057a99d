import Lox.Proofs.Machine.Effects
import Lox.Proofs.Machine.Throughout
import Lox.Proofs.Store.Names

/-!
# Names come from declarations

A declaration adds its name to the current scope, and nothing else adds a name to a scope that
exists: what stands in a block or in the body of a function is declared in a new scope, and neither
expressions nor other statements declare anything where they are executed. While they are executed,
only assignments change what older scopes bind. No name is ever taken away.
-/

namespace Lox

namespace Store.Turns

variable {s s' : Store} {c d : ScopeId} {t : Task}

/-- The last step of a task takes no scope away. -/
lemma grows (h : s.Turns c t s') : s.Grows s' := by
  cases h with
  | same => exact .refl s
  | assign name e v => exact .assign s c name.lexeme v
  | define v _ => exact .define s c _ v

/-- The last step of a task takes no name away. -/
lemma names_prefix (h : s.Turns c t s') (d : ScopeId) : s.names d <+: s'.names d := by
  cases h with
  | same => exact List.prefix_rfl
  | assign name e v => rw [names_assign]
  | define v _ => exact names_define_prefix

/-- The last step of a task adds no name to another scope than its own. -/
lemma names_of_ne (h : s.Turns c t s') (ne : d ≠ c) : s'.names d = s.names d := by
  cases h with
  | same => rfl
  | assign name e v => exact names_assign s c d name.lexeme v
  | define v _ => exact names_define_of_ne ne

/-- The last step of a quiet task adds no name at all. -/
lemma names_of_quiet (quiet : t.Quiet) (h : s.Turns c t s') (d : ScopeId) :
    s'.names d = s.names d := by
  cases h with
  | same => rfl
  | assign name e v => exact names_assign s c d name.lexeme v
  | define v declares =>
    rw [Stmt.plain_iff.mp quiet.2] at declares
    exact nomatch declares

/-- Quiet tasks, and all that is done in later scopes, change the bindings of the first `n` scopes by
assignments only. -/
lemma changes {n : Nat} (h : s.Turns c t s') (quiet : t.Quiet ∨ n ≤ c) :
    (∃ name e v, t = .evaluate (.assign name e) ∧ s' = (s.assign c name.lexeme v).1) ∨
      ∀ d < n, s'.bindings d = s.bindings d := by
  cases h with
  | same => exact .inr fun _ _ => rfl
  | assign name e v => exact .inl ⟨name, e, v, rfl, rfl⟩
  | define v declares =>
    rcases quiet with ⟨-, plain⟩ | le
    · rw [Stmt.plain_iff.mp plain] at declares
      exact nomatch declares
    · exact .inr fun d lt => bindings_define_of_ne (Nat.ne_of_lt (Nat.lt_of_lt_of_le lt le))

end Store.Turns

namespace Machine

/-- All scopes of the first machine bind the same names in the second one. -/
structure SameNames (m m' : Machine) : Prop where
  current : m'.current = m.current
  grows : m.store.Grows m'.store
  names : ∀ c < m.store.scopes.size, m'.store.names c = m.store.names c

/-- The scopes of the first machine keep their names in the second one, and only the current one may
have got others behind them. -/
structure MoreNames (m m' : Machine) : Prop where
  current : m'.current = m.current
  grows : m.store.Grows m'.store
  kept : ∀ c < m.store.scopes.size, m.store.names c <+: m'.store.names c
  others : ∀ c < m.store.scopes.size, c ≠ m.current → m'.store.names c = m.store.names c

variable {m m₁ m₂ : Machine} {t : Task}

namespace SameNames

/-- A machine binds the same names as itself. -/
lemma refl (m : Machine) : m.SameNames m :=
  ⟨rfl, .refl _, fun _ _ => rfl⟩

/-- Machines bind the same names if they do so by way of a third one. -/
lemma trans (first : m.SameNames m₁) (second : m₁.SameNames m₂) : m.SameNames m₂ where
  current := second.current.trans first.current
  grows := first.grows.trans second.grows
  names c lt :=
    (second.names c (Nat.lt_of_lt_of_le lt first.grows.size)).trans (first.names c lt)

/-- What is visible in a scope stays so, and nothing else becomes visible. -/
lemma visible (h : m.SameNames m₁) (name : String) {c : ScopeId}
    (lt : c < m.store.scopes.size) : m₁.store.get? c name ≠ none ↔ m.store.get? c name ≠ none :=
  h.grows.means_iff h.names name lt

/-- After the last step of a quiet task, the same names are bound. -/
lemma of_turns (quiet : t.Quiet) (turns : m.Turns t m₁) : m.SameNames m₁ :=
  ⟨turns.current, turns.store.grows, fun c _ => turns.store.names_of_quiet quiet c⟩

end SameNames

namespace MoreNames

/-- A machine has kept its own names. -/
lemma refl (m : Machine) : m.MoreNames m :=
  ⟨rfl, .refl _, fun _ _ => List.prefix_rfl, fun _ _ _ => rfl⟩

/-- Names that are kept twice are kept. -/
lemma trans (first : m.MoreNames m₁) (second : m₁.MoreNames m₂) : m.MoreNames m₂ where
  current := second.current.trans first.current
  grows := first.grows.trans second.grows
  kept c lt := (first.kept c lt).trans (second.kept c (Nat.lt_of_lt_of_le lt first.grows.size))
  others c lt ne := by
    have outside : c ≠ m₁.current := by rwa [first.current]
    have later := second.others c (Nat.lt_of_lt_of_le lt first.grows.size) outside
    exact later.trans (first.others c lt ne)

/-- After the last step of a task, no name is lost, and none is new but in its scope. -/
lemma of_turns (turns : m.Turns t m₁) : m.MoreNames m₁ where
  current := turns.current
  grows := turns.store.grows
  kept c _ := turns.store.names_prefix c
  others _ _ ne := turns.store.names_of_ne ne

end MoreNames

/-- Names that are the same are kept. -/
lemma SameNames.more (h : m.SameNames m₁) : m.MoreNames m₁ where
  current := h.current
  grows := h.grows
  kept c lt := by rw [h.names c lt]
  others c lt _ := h.names c lt

end Machine

section

variable {m m' : Machine} {name : Token} {s : Stmt} {clock : Clock} {fuel : Nat}

/-- What is declared in a new scope stays there. -/
lemma Eval.Along.inScope_sameNames {α : Type} {x : Eval α} (h : Along Machine.MoreNames x)
    (parent : ScopeId) (bindings : List (String × Value)) :
    Along Machine.SameNames (inScope parent bindings x) := by
  intro m m' left
  obtain ⟨m₁, inside, rfl⟩ := machine?_inScope left
  have more := h _ m₁ inside
  have child := Store.Grows.child m.store parent
  have defined := Store.Grows.defineAll (m.store.child parent).2 m.store.scopes.size bindings
  have opened := child.trans defined
  refine ⟨rfl, opened.trans more.grows, fun c lt => ?_⟩
  have outside : c ≠ m.store.scopes.size := Nat.ne_of_lt lt
  calc
    m₁.store.names c
    _ = ((m.store.child parent).2.defineAll m.store.scopes.size bindings).names c :=
      more.others c (Nat.lt_of_lt_of_le lt opened.size) outside
    _ = (m.store.child parent).2.names c := Store.names_defineAll_of_ne outside
    _ = m.store.names c := Store.names_child

/-- A relation of machines holds along a plan if it holds for the steps, along the parts, and along
all that is done in new scopes. -/
lemma Plan.Fits.along {α : Type} {t : Task} {plan : Plan α} {R : Machine → Machine → Prop}
    (refl : ∀ m, R m m) (trans : ∀ {m₁ m₂ m₃}, R m₁ m₂ → R m₂ m₃ → R m₁ m₃)
    (steps : ∀ m m', m.Turns t m' → R m m')
    (parts : ∀ u : Task, (t.Quiet → u.Quiet) → Eval.Along R (u.run clock fuel))
    (scopes : ∀ parent bindings body,
      Eval.Along R (Eval.inScope parent bindings (Eval.executeAll clock fuel body)))
    (fits : plan.Fits t) : Eval.Along R (plan.run clock fuel) := by
  induction plan with
  | last x => exact fun m m' left => steps m m' (fits m m' left)
  | part u next ih =>
    exact .bind_of_trans trans (parts u fits.1) fun result => ih result (fits.2 result)
  | inside parent bindings body finish =>
    refine .bind_of_trans trans (.current refl) fun scope => ?_
    exact (scopes (parent.getD scope) bindings body).bind_pure finish

/-- No task takes a name away or adds one to another scope than the current one, and quiet ones add
none to that either. -/
lemma Task.run_names (clock : Clock) (fuel : Nat) (t : Task) :
    Eval.Along Machine.MoreNames (t.run clock fuel) ∧
      (t.Quiet → Eval.Along Machine.SameNames (t.run clock fuel)) := by
  induction fuel generalizing t with
  | zero =>
    rw [Task.run_zero]
    exact ⟨.exhausted, fun _ => .exhausted⟩
  | succ fuel ih =>
    have scopes parent bindings body : Eval.Along Machine.SameNames
        (Eval.inScope parent bindings (Eval.executeAll clock fuel body)) :=
      (ih (.executeAll body)).1.inScope_sameNames parent bindings
    rw [Task.run_succ]
    constructor
    · refine (t.plan_fits clock).along .refl .trans (fun _ _ => .of_turns) ?_ ?_
      · exact fun u _ => (ih u).1
      · exact fun parent bindings body m m' left => (scopes parent bindings body m m' left).more
    · intro quiet
      refine (t.plan_fits clock).along .refl .trans (fun _ _ => .of_turns quiet) ?_ scopes
      exact fun u quiet' => (ih u).2 (quiet' quiet)

/-- How a declaration of a name ends: with the name in the current scope and no other one anywhere,
or with an error and no new names at all. -/
inductive Outcome.Declares (name : String) (m : Machine) : Outcome Completion → Prop where
  | ok {completion : Completion} {m' : Machine} :
    m.MoreNames m' →
    (∀ c < m.store.scopes.size, ∀ key,
      key ∈ m'.store.names c ↔ key ∈ m.store.names c ∨ c = m.current ∧ key = name) →
    Declares name m (.ok completion m')
  | error {e : RuntimeError} {m' : Machine} :
    m.SameNames m' →
    Declares name m (.error e m')
  | exhausted :
    Declares name m .exhausted

/-- Once its value is there, a declaration ends with the name in the current scope. -/
lemma Outcome.declares_define {m₁ : Machine} (same : m.SameNames m₁) (name : String) (v : Value)
    (serial : Nat) :
    Outcome.Declares name m (.ok .normal
      ⟨m₁.store.define m₁.current name v, m₁.current, m₁.printed, m₁.readings, serial⟩) := by
  have grows := Store.Grows.define m₁.store m₁.current name v
  refine .ok ⟨same.current, same.grows.trans grows, ?_, ?_⟩ ?_
  · intro c lt
    rw [← same.names c lt]
    exact Store.names_define_prefix
  · intro c lt ne
    rw [← same.names c lt]
    exact Store.names_define_of_ne (by rwa [same.current])
  · intro c lt key
    rw [← same.names c lt, ← same.current]
    by_cases here : c = m₁.current
    · have inside := Nat.lt_of_lt_of_le lt same.grows.size
      rw [here] at inside ⊢
      rw [Store.names_define_self inside]
      split
      · next mem =>
        exact ⟨.inl, fun found => found.elim id fun new => new.2 ▸ mem⟩
      · rw [List.mem_append, List.mem_singleton]
        exact or_congr_right (and_iff_right rfl).symm
    · rw [Store.names_define_of_ne here]
      exact (or_iff_left fun new => here new.1).symm

/-- A declaration adds its own name to the current scope, or fails and adds none. -/
lemma Stmt.execute_declares (declares : s.declared? = some name) (m : Machine) :
    Outcome.Declares name.lexeme m (Eval.execute clock fuel s m) := by
  cases fuel with
  | zero => exact .exhausted
  | succ fuel =>
    cases s with
    | var name initializer =>
      cases declares
      cases initializer with
      | none => exact Outcome.declares_define (.refl m) name.lexeme .nil m.serial
      | some e =>
        have evaluated := (Task.run_names clock fuel (.evaluate e)).2 trivial m
        rw [Task.run] at evaluated
        rw [Eval.execute, Eval.bind_apply]
        cases result : Eval.evaluate clock fuel e m with
        | ok v m₁ =>
          rw [result] at evaluated
          exact Outcome.declares_define (evaluated m₁ rfl) name.lexeme v m₁.serial
        | error e m₁ =>
          rw [result] at evaluated
          exact .error (evaluated m₁ rfl)
        | exhausted => exact .exhausted
    | function name parameters body =>
      cases declares
      exact Outcome.declares_define (.refl m) name.lexeme _ (m.serial + 1)
    | _ => cases declares

end

namespace Stack

/-- At `c`, the tasks down to the one behind which `depth` others wait declare nothing in one of the
first `n` scopes: they are quiet, or run in a later one. -/
inductive Guarded (n depth : Nat) : {t : Task} → ScopeId → Stack t → Prop where
  | outermost {t : Task} {c : ScopeId} {stack : Stack t} :
    stack.depth = depth → (t.Quiet ∨ n ≤ c) →
    Guarded n depth c stack
  | part {t u : Task} {c : ScopeId} {next : t.Result → Plan u.Result} {held : List Value}
    {around : Stack u} :
    (t.Quiet ∨ n ≤ c) → (∀ result, (next result).Fits u) → Guarded n depth c around →
    Guarded n depth c (.part next held around)
  | scope {body : List Stmt} {u : Task} {inner outer : ScopeId} {finish : Completion → u.Result}
    {held : List Value} {around : Stack u} :
    n ≤ inner → Guarded n depth outer around →
    Guarded n depth inner (.scope inner outer finish held around : Stack (.executeAll body))

variable {n depth : Nat} {t : Task} {c : ScopeId} {stack : Stack t}

/-- The innermost task is quiet, or runs in a later scope. -/
lemma Guarded.quiet (h : stack.Guarded n depth c) : t.Quiet ∨ n ≤ c := by
  cases h with
  | outermost _ quiet => exact quiet
  | part quiet _ _ => exact quiet
  | scope le _ => exact .inr le

end Stack

namespace Moment

/-- No declaration comes in one of the first `n` scopes until the task ends behind which `depth` others
wait. -/
def Guarded (n depth : Nat) : Moment → Prop
  | idle _ => True
  | within t rest _ m stack =>
    stack.Guarded n depth m.current ∧ rest.Fits t ∧ n ≤ m.store.scopes.size
  | behind _ _ m stack | failed _ _ m stack =>
    stack.Guarded n depth m.current ∧ n ≤ m.store.scopes.size

/-- The step to the next moment is the last one of an assignment to a variable. -/
def Assigns (now next : Moment) : Prop :=
  ∃ name e x held m stack v,
    now = within (.evaluate (.assign name e)) (.last x) held m stack ∧
      next.machine.store = (m.store.assign m.current name.lexeme v).1

/-- The first `n` scopes bind what they bound, unless an assignment comes to its end. -/
def ChangesByAssignment (n : Nat) (now next : Moment) : Prop :=
  now.Assigns next ∨ ∀ c < n, next.machine.store.bindings c = now.machine.store.bindings c

variable {clock : Clock} {n depth : Nat} {now next later : Moment}

/-- The last step of a task leaves a machine that the task may leave. -/
lemma guarded_of_last {t : Task} {x : Eval t.Result} {held : List Value} {m : Machine}
    {stack : Stack t} (h : (within t (.last x) held m stack).Guarded n depth)
    (left : next.machine ∈ (x m).machine?) :
    (within t (.last x) held m stack).ChangesByAssignment n next ∧
      stack.Guarded n depth next.machine.current ∧ n ≤ next.machine.store.scopes.size := by
  obtain ⟨guarded, fits, le⟩ := h
  have turns : m.Turns t next.machine := fits m _ left
  refine ⟨?_, turns.current.symm ▸ guarded, Nat.le_trans le turns.store.grows.size⟩
  rcases turns.store.changes guarded.quiet with ⟨name, e, v, rfl, changed⟩ | same
  · exact .inl ⟨name, e, x, held, m, stack, v, rfl, changed⟩
  · exact .inr same

/-- As long as the task has not ended, a step changes the first `n` scopes by assignments only. -/
lemma Step.guarded (step : Step clock now next) (busy : ¬ now.Over depth)
    (h : now.Guarded n depth) : now.ChangesByAssignment n next ∧ next.Guarded n depth := by
  cases step with
  | start => exact absurd trivial busy
  | result ended => exact guarded_of_last h (by rw [ended]; rfl)
  | failure ended => exact guarded_of_last h (by rw [ended]; rfl)
  | part =>
    obtain ⟨guarded, ⟨quiet, fits⟩, le⟩ := h
    exact ⟨.inr fun _ _ => rfl, .part (guarded.quiet.imp_left quiet) fits guarded,
      Task.plan_fits clock _, le⟩
  | @inside u parent bindings body finish held m stack =>
    obtain ⟨guarded, -, le⟩ := h
    have grows := (Store.Grows.child m.store (parent.getD m.current)).trans
      (.defineAll _ m.store.scopes.size bindings)
    refine ⟨.inr fun c lt => ?_, .scope le guarded, Task.plan_fits clock _,
      Nat.le_trans le grows.size⟩
    have outside : c ≠ m.store.scopes.size := Nat.ne_of_lt (Nat.lt_of_lt_of_le lt le)
    exact (Store.bindings_defineAll_of_ne outside).trans Store.bindings_child
  | resume =>
    obtain ⟨guarded, le⟩ := h
    cases guarded with
    | outermost same _ => exact absurd (Nat.le_of_eq same) busy
    | part _ fits guarded => exact ⟨.inr fun _ _ => rfl, guarded, fits _, le⟩
  | leave =>
    obtain ⟨guarded, le⟩ := h
    cases guarded with
    | outermost same _ => exact absurd (Nat.le_of_eq same) busy
    | scope _ guarded => exact ⟨.inr fun _ _ => rfl, guarded, le⟩
  | stop =>
    obtain ⟨⟨same, -⟩, -⟩ := h
    exact absurd (Nat.le_of_eq same) busy
  | giveUp =>
    obtain ⟨guarded, le⟩ := h
    cases guarded with
    | outermost same _ => exact absurd (Nat.le_of_eq same) busy
    | part _ _ guarded => exact ⟨.inr fun _ _ => rfl, guarded, le⟩
  | giveUpScope =>
    obtain ⟨guarded, le⟩ := h
    cases guarded with
    | outermost same _ => exact absurd (Nat.le_of_eq same) busy
    | scope _ guarded => exact ⟨.inr fun _ _ => rfl, guarded, le⟩
  | giveUpProgram =>
    obtain ⟨⟨same, -⟩, -⟩ := h
    exact absurd (Nat.le_of_eq same) busy

/-- As long as the task does not end, its moments stay guarded. -/
lemma LeadsWithin.guarded (h : now.Guarded n depth) (leads : LeadsWithin depth now later) :
    later.Guarded n depth := by
  induction leads with
  | refl => exact h
  | step clock _ busy step ih => exact (step.guarded busy ih).2

/-- While a quiet task goes on, scopes that were there before change by assignments only. -/
lemma changes_of_quiet {t : Task} {m : Machine} {stack : Stack t} {clock' : Clock}
    (quiet : t.Quiet) (leads : LeadsWithin stack.depth (beginning clock t m stack) now)
    (busy : ¬ now.Over stack.depth) (step : Step clock' now next) :
    now.ChangesByAssignment m.store.scopes.size next := by
  have begun : (beginning clock t m stack).Guarded m.store.scopes.size stack.depth :=
    ⟨.outermost rfl (.inl quiet), t.plan_fits clock, Nat.le_refl _⟩
  exact (step.guarded busy (leads.guarded begun)).1

end Moment

namespace Machine

open Moment

/-- What all that is done with `fuel` units does to the names of scopes that were there before, whether
it ends, returns or fails. -/
structure NamesLaw (clock : Clock) (fuel : Nat) : Prop where
  evaluate (e : Expr) : Eval.Along SameNames (Eval.evaluate clock fuel e)
  /-- What stands anywhere in a parsed program and is no declaration adds no name. -/
  execute {tokens : List Token} {s t : Stmt} :
    t ∈ (Program.parse tokens).1 → s.Occurs t → s.declared? = none →
    Eval.Along SameNames (Eval.execute clock fuel s)
  declare {s : Stmt} {name : Token} :
    s.declared? = some name →
    ∀ m, Outcome.Declares name.lexeme m (Eval.execute clock fuel s m)
  assign (name : Token) (v : Value) : Eval.Along SameNames (Eval.assign name v)
  /-- Nothing takes a name away, or adds one to another scope than the current one. -/
  kept (t : Task) : Eval.Along MoreNames (t.run clock fuel)
  /-- Where there are no new names, nothing becomes visible, and all that was visible still is. -/
  visible {m m' : Machine} :
    m.SameNames m' →
    ∀ name, ∀ c < m.store.scopes.size, m'.store.get? c name ≠ none ↔ m.store.get? c name ≠ none
  quiet {tokens : List Token} {s t : Stmt} :
    t ∈ (Program.parse tokens).1 → s.Occurs t → s.declared? = none → (Task.execute s).Quiet
  /-- From the beginning of a task to where the evaluator ends it, there is one moment after the
  other. -/
  leads (t : Task) (m : Machine) (stack : Stack t) :
    ∀ later ∈ ended? t stack (t.run clock fuel m),
      LeadsWithin stack.depth (beginning clock t m stack) later
  /-- In between, if the task is quiet, scopes that were there before change by assignments only. -/
  changes {t : Task} {m : Machine} {stack : Stack t} {now next : Moment} {clock' : Clock} :
    t.Quiet → LeadsWithin stack.depth (beginning clock t m stack) now → ¬ now.Over stack.depth →
    Step clock' now next →
    now.ChangesByAssignment m.store.scopes.size next

/-- Only declarations add names, and only to the current scope. -/
theorem names_law (clock : Clock) (fuel : Nat) : NamesLaw clock fuel where
  evaluate e := (Task.run_names clock fuel (.evaluate e)).2 trivial
  execute {_ s _} mem occurs plain :=
    (Task.run_names clock fuel (.execute s)).2
      ⟨Program.proper_parse mem occurs, Stmt.plain_iff.mpr plain⟩
  declare declares m := Stmt.execute_declares declares m
  assign name v m m' left := by
    -- It is the last step of a task, whatever the value was computed from.
    have quiet : (Task.evaluate (.assign name (.literal .nil))).Quiet := trivial
    exact .of_turns quiet (Eval.Along.turns_assign name _ v m m' left)
  kept t := (Task.run_names clock fuel t).1
  visible same name _ lt := same.visible name lt
  quiet mem occurs plain := ⟨Program.proper_parse mem occurs, Stmt.plain_iff.mpr plain⟩
  leads t m stack := leadsWithin_of_run clock fuel t m stack
  changes := changes_of_quiet

/-- A block that declares a name and changes a global leaves the globals with the names they had. -/
theorem names_law_of_block :
    let token (kind : Kind) (lexeme : String) : Token := ⟨kind, lexeme, none, 1, ⟨0, 0⟩⟩
    let tokens := [token .leftBrace "\x7b", token .kwVar "var", token .identifier "a",
      token .semicolon ";", token .identifier "clock", token .equal "=", token .identifier "a",
      token .semicolon ";", token .rightBrace "\x7d"]
    ∃ s m, Program.parse tokens = ([s], []) ∧
      Eval.execute (fun _ => 0) 20 s .initial = .ok .normal m ∧
      m.store.get? Store.globals "clock" = some .nil ∧ m.store.names 1 = ["a"] ∧
      Machine.initial.SameNames m := by
  intro token tokens
  obtain ⟨s, m, parsed, ended, changed, inner, plain⟩ : ∃ s m,
      Program.parse tokens = ([s], []) ∧
        Eval.execute (fun _ => 0) 20 s .initial = .ok .normal m ∧
        m.store.get? Store.globals "clock" = some .nil ∧ m.store.names 1 = ["a"] ∧
        s.declared? = none :=
    ⟨_, _, by cbv, by cbv, by cbv, by cbv, by cbv⟩
  have mem : s ∈ (Program.parse tokens).1 := by
    rw [parsed]
    exact List.mem_singleton_self s
  have left := congrArg Outcome.machine? ended
  have same := (names_law (fun _ => 0) 20).execute mem .refl plain .initial m left
  exact ⟨s, m, parsed, ended, changed, inner, same⟩

end Machine

end Lox
