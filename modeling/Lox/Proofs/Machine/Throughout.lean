import Lox.Proofs.Machine.WellFormed

/-!
# Scopes throughout a session

What `Plan.Safe` says of plans holds at every moment of a session, by one case for each step. So the
store is well formed all the time, scopes and functions stay what they are, and each block and each
call of a function runs in a scope to which nothing has referred before.
-/

namespace Lox

namespace Stack

/-- The values that the tasks on the stack have come by. -/
def values {t : Task} : Stack t → List Value
  | program => []
  | part _ held around => held ++ around.values
  | scope _ _ _ held around => held ++ around.values

/-- The scopes of the blocks and calls on the stack, and those that will be current behind them. -/
def scopes {t : Task} : Stack t → List ScopeId
  | program => []
  | part _ _ around => around.scopes
  | scope inner outer _ _ around => inner :: outer :: around.scopes

/-- The scope of the innermost block or call on the stack, or else the globals. -/
def innermost {t : Task} : Stack t → ScopeId
  | program => Store.globals
  | part _ _ around => around.innermost
  | scope inner _ _ _ _ => inner

/-- What waits on the stack is safe, about known values, and in scopes that exist. -/
def WellFormed (w : Created) {t : Task} : Stack t → Prop
  | program => True
  | @part t u next held around =>
    (∀ result (w' : Created), w.Grows w' → (∀ v ∈ t.yields result, w'.Knows v) →
        (next result).Safe u.yields w') ∧
      (∀ v ∈ held, w.Knows v) ∧ around.WellFormed w
  | @scope _ u inner outer finish held around =>
    inner < w.scopes ∧ outer = around.innermost ∧
      (∀ completion (w' : Created), (∀ v ∈ Completion.values completion, w'.Knows v) →
        ∀ v ∈ u.yields (finish completion), w'.Knows v) ∧
      (∀ v ∈ held, w.Knows v) ∧ around.WellFormed w

variable {w w' : Created} {t : Task} {stack : Stack t}

/-- A stack stays well formed while more is created. -/
lemma WellFormed.grow (h : stack.WellFormed w) (grows : w.Grows w') : stack.WellFormed w' := by
  induction stack with
  | program => trivial
  | part next held around ih =>
    obtain ⟨safe, known, others⟩ := h
    refine ⟨fun result w'' more => safe result w'' (grows.trans more), ?_, ih others⟩
    exact fun v mem => (known v mem).grow grows
  | scope inner outer finish held around ih =>
    obtain ⟨lt, same, safe, known, others⟩ := h
    refine ⟨Nat.lt_of_lt_of_le lt grows.scopes, same, safe, ?_, ih others⟩
    exact fun v mem => (known v mem).grow grows

/-- The values on a well-formed stack are known. -/
lemma WellFormed.known (h : stack.WellFormed w) : ∀ v ∈ stack.values, w.Knows v := by
  induction stack with
  | program => exact List.forall_mem_nil _
  | part next held around ih =>
    obtain ⟨-, known, others⟩ := h
    exact List.forall_mem_append.mpr ⟨known, ih others⟩
  | scope inner outer finish held around ih =>
    obtain ⟨-, -, -, known, others⟩ := h
    exact List.forall_mem_append.mpr ⟨known, ih others⟩

/-- The innermost scope of a well-formed stack exists. -/
lemma WellFormed.innermost_lt (h : stack.WellFormed w) (globals : Store.globals < w.scopes) :
    stack.innermost < w.scopes := by
  induction stack with
  | program => exact globals
  | part next held around ih => exact ih h.2.2
  | scope inner outer finish held around _ => exact h.1

/-- All scopes of a well-formed stack exist. -/
lemma WellFormed.scopes_lt (h : stack.WellFormed w) (globals : Store.globals < w.scopes) :
    ∀ c ∈ stack.scopes, c < w.scopes := by
  induction stack with
  | program => exact List.forall_mem_nil _
  | part next held around ih => exact ih h.2.2
  | scope inner outer finish held around ih =>
    obtain ⟨lt, rfl, -, -, others⟩ := h
    rw [Stack.scopes, List.forall_mem_cons, List.forall_mem_cons]
    exact ⟨lt, others.innermost_lt globals, ih others⟩

end Stack

namespace Moment

/-- The machine at a moment. -/
def machine : Moment → Machine
  | idle m | within _ _ _ m _ | behind _ _ m _ | failed _ _ m _ => m

/-- The machine that a task leaves is the one at the moment at which the task has ended. -/
lemma exists_ended? (t : Task) (stack : Stack t) {outcome : Outcome t.Result} {m : Machine}
    (left : m ∈ outcome.machine?) : ∃ later ∈ ended? t stack outcome, later.machine = m := by
  cases outcome with
  | ok result m' | error e m' =>
    cases left
    exact ⟨_, rfl, rfl⟩
  | exhausted => cases left

/-- The values that are held at a moment: operands, arguments, results, and those that an error is
about. -/
def values : Moment → List Value
  | idle _ => []
  | within _ _ held _ stack => held ++ stack.values
  | behind t result _ stack => t.yields result ++ stack.values
  | failed _ e _ stack => e.cause.values ++ stack.values

/-- The scopes of the blocks and calls that are under way, and those that will be current behind
them. -/
def scopes : Moment → List ScopeId
  | idle _ => []
  | within _ _ _ _ stack | behind _ _ _ stack | failed _ _ _ stack => stack.scopes

/-- The scope of the innermost block or call that is under way, or else the globals. -/
def innermost : Moment → ScopeId
  | idle _ => Store.globals
  | within _ _ _ _ stack | behind _ _ _ stack | failed _ _ _ stack => stack.innermost

/-- What comes at a moment is safe. -/
inductive WellFormed (made : List Closure) : Moment → Prop where
  | idle {m : Machine} :
    m.WellFormed made → m.current = Store.globals →
    WellFormed made (.idle m)
  | within {t : Task} {rest : Plan t.Result} {held : List Value} {m : Machine} {stack : Stack t} :
    m.WellFormed made → m.current = stack.innermost → stack.WellFormed (m.created made) →
    (∀ v ∈ held, (m.created made).Knows v) → rest.Safe t.yields (m.created made) →
    WellFormed made (.within t rest held m stack)
  | behind {t : Task} {result : t.Result} {m : Machine} {stack : Stack t} :
    m.WellFormed made → m.current = stack.innermost → stack.WellFormed (m.created made) →
    (∀ v ∈ t.yields result, (m.created made).Knows v) →
    WellFormed made (.behind t result m stack)
  | failed {t : Task} {e : RuntimeError} {m : Machine} {stack : Stack t} :
    m.WellFormed made → m.current = stack.innermost → stack.WellFormed (m.created made) →
    (∀ v ∈ e.cause.values, (m.created made).Knows v) →
    WellFormed made (.failed t e m stack)

namespace WellFormed

variable {made : List Closure} {now : Moment}

/-- The machine of a well-formed moment is well formed. -/
lemma machine (h : now.WellFormed made) : now.machine.WellFormed made := by
  cases h <;> assumption

/-- The current scope is that of the innermost block or call. -/
lemma current (h : now.WellFormed made) : now.machine.current = now.innermost := by
  cases h <;> assumption

/-- The values that are held are known. -/
lemma known (h : now.WellFormed made) : ∀ v ∈ now.values, (now.machine.created made).Knows v := by
  cases h with
  | idle => exact List.forall_mem_nil _
  | within _ _ stack known => exact List.forall_mem_append.mpr ⟨known, stack.known⟩
  | behind _ _ stack known => exact List.forall_mem_append.mpr ⟨known, stack.known⟩
  | failed _ _ stack known => exact List.forall_mem_append.mpr ⟨known, stack.known⟩

/-- The scopes of blocks and calls under way exist. -/
lemma scopes_lt (h : now.WellFormed made) :
    ∀ c ∈ now.scopes, c < now.machine.store.scopes.size := by
  cases h with
  | idle => exact List.forall_mem_nil _
  | within m _ stack => exact stack.scopes_lt m.store.globals.1
  | behind m _ stack => exact stack.scopes_lt m.store.globals.1
  | failed m _ stack => exact stack.scopes_lt m.store.globals.1

end WellFormed

/-- A task begins well if its operands are known and what waits behind it is well formed. -/
lemma beginning_wellFormed {clock : Clock} {made : List Closure} {t : Task} {m : Machine}
    {stack : Stack t} (h : m.WellFormed made) (same : m.current = stack.innermost)
    (waiting : stack.WellFormed (m.created made))
    (known : ∀ v ∈ t.operands, (m.created made).Knows v) :
    (beginning clock t m stack).WellFormed made :=
  .within h same waiting known (t.plan_safe known)

/-- Behind a block or a call, the machine is in the scope in which it was before. -/
lemma back_wellFormed {made : List Closure} {m : Machine} {u : Task} {stack : Stack u}
    (h : m.WellFormed made) (waiting : stack.WellFormed (m.created made)) :
    { m with current := stack.innermost }.WellFormed made :=
  ⟨h.store, waiting.innermost_lt h.store.globals.1, h.bound, h.serial⟩

/-- A step keeps moments well formed, and all scopes and functions what they are. -/
lemma Step.preserves {clock : Clock} {made : List Closure} {now next : Moment}
    (h : now.WellFormed made) (step : Step clock now next) :
    ∃ made', now.machine.Keeps made next.machine made' ∧ next.WellFormed made' := by
  cases step with
  | start =>
    cases h with | idle machine same =>
    refine ⟨made, .refl _ made, beginning_wellFormed machine same trivial ?_⟩
    exact List.forall_mem_nil _
  | result ended =>
    cases h with | within machine same waiting known safe =>
    have sound := safe _ made machine (.refl _)
    rw [ended] at sound
    cases sound with | ok leaves after known' =>
    refine ⟨_, leaves.toKeeps, ?_⟩
    exact .behind after (leaves.same.trans same) (waiting.grow leaves.created) known'
  | failure ended =>
    cases h with | within machine same waiting known safe =>
    have sound := safe _ made machine (.refl _)
    rw [ended] at sound
    cases sound with | error leaves after known' =>
    refine ⟨_, leaves.toKeeps, ?_⟩
    exact .failed after (leaves.same.trans same) (waiting.grow leaves.created) known'
  | part =>
    cases h with | within machine same waiting known safe =>
    obtain ⟨operands, rest⟩ := safe
    refine ⟨made, .refl _ made, ?_⟩
    exact beginning_wellFormed machine same ⟨rest, known, waiting⟩ operands
  | @inside u parent bindings body finish held m stack =>
    cases h with | within machine same waiting known safe =>
    obtain ⟨carried, arguments, finished⟩ := safe
    have lt : parent.getD m.current < m.store.scopes.size := by
      cases parent with
      | none => exact machine.current
      | some p => exact carried p rfl
    obtain ⟨keeps, opened⟩ := Eval.opened_wellFormed machine lt arguments
    refine ⟨made, keeps, beginning_wellFormed opened rfl ?_ (List.forall_mem_nil _)⟩
    refine ⟨opened.current, same, finished, ?_, waiting.grow keeps.created⟩
    exact fun v mem => (known v mem).grow keeps.created
  | resume =>
    cases h with | behind machine same waiting known =>
    obtain ⟨rest, held, waiting⟩ := waiting
    refine ⟨made, .refl _ made, .within machine same waiting ?_ ?_⟩
    · exact List.forall_mem_append.mpr ⟨known, held⟩
    · exact rest _ _ (.refl _) known
  | leave =>
    cases h with | behind machine _ waiting known =>
    obtain ⟨-, rfl, finished, -, waiting⟩ := waiting
    refine ⟨made, .of_grows (.refl _), ?_⟩
    exact .behind (back_wellFormed machine waiting) rfl waiting (finished _ _ known)
  | stop =>
    cases h with | behind machine same _ _ =>
    exact ⟨made, .refl _ made, .idle machine same⟩
  | giveUp =>
    cases h with | failed machine same waiting known =>
    exact ⟨made, .refl _ made, .failed machine same waiting.2.2 known⟩
  | giveUpScope =>
    cases h with | failed machine _ waiting known =>
    obtain ⟨-, rfl, -, -, waiting⟩ := waiting
    refine ⟨made, .of_grows (.refl _), ?_⟩
    exact .failed (back_wellFormed machine waiting) rfl waiting known
  | giveUpProgram =>
    cases h with | failed machine same _ _ =>
    exact ⟨made, .refl _ made, .idle machine same⟩

/-- So do any number of steps. -/
lemma Leads.preserves {made : List Closure} {now later : Moment} (h : now.WellFormed made)
    (leads : now.Leads later) :
    ∃ made', now.machine.Keeps made later.machine made' ∧ later.WellFormed made' := by
  induction leads with
  | refl => exact ⟨made, .refl _ made, h⟩
  | step clock _ step ih =>
    obtain ⟨made', keeps, between⟩ := ih
    obtain ⟨made'', keeps', after⟩ := step.preserves between
    exact ⟨made'', keeps.trans keeps', after⟩

/-- A function that is held or bound at a moment. -/
inductive Handles (now : Moment) : Closure → Prop where
  | held {f : Closure} :
    .function f ∈ now.values →
    Handles now f
  | bound {c : ScopeId} {name : String} {f : Closure} :
    (name, .function f) ∈ now.machine.store.bindings c →
    Handles now f

/-- A scope to which something refers at a moment. -/
inductive Refers (now : Moment) : ScopeId → Prop where
  | current :
    Refers now now.machine.current
  | underWay {c : ScopeId} :
    c ∈ now.scopes →
    Refers now c
  | carried {f : Closure} :
    now.Handles f →
    Refers now f.scope
  | enclosing {c p : ScopeId} :
    now.machine.store.enclosing? c = some p →
    Refers now p

/-- The next moment is the beginning of the statements `body` in the given scope, which is inside
`parent`, and to which nothing refers at the moment `now`. -/
structure Opens (now next : Moment) (c parent : ScopeId) (body : List Stmt) : Prop where
  begins : ∃ clock m stack, next = beginning clock (.executeAll body) m stack
  current : next.machine.current = c
  enclosing : next.machine.store.enclosing? c = some parent
  unreferred : ¬ now.Refers c

/-- What holds of the scopes between a moment of a session and a later one. -/
structure Orderly (now later : Moment) : Prop where
  wellFormed : later.machine.store.WellFormed
  refers {c : ScopeId} : later.Refers c → c < later.machine.store.scopes.size
  current : later.machine.current = later.innermost
  /-- No scope disappears or gets another parent. -/
  grows : now.machine.store.Grows later.machine.store
  /-- No function changes, nor does the scope that it carries. -/
  functions {f g : Closure} : now.Handles f → later.Handles g → f.serial = g.serial → f = g
  /-- Names are looked up along a finite path to the globals that passes no scope twice. -/
  path {c : ScopeId} : c < later.machine.store.scopes.size →
    ∃ ps, later.machine.store.Path c ps ∧ ps.Nodup ∧ ps.getLast? = some Store.globals ∧
      (∀ name, later.machine.store.get? c name =
        ps.findSome? fun d => (later.machine.store.bindings d).get? name) ∧
      ∀ name v, later.machine.store.assign c name v =
        match ps.find? fun d => ((later.machine.store.bindings d).get? name).isSome with
        | some d => (later.machine.store.define d name v, true)
        | none => (later.machine.store, false)
  /-- A block runs in a new scope inside the current one. -/
  block {clock : Clock} {body : List Stmt} {m : Machine} {stack : Stack (.execute (.block body))} :
    later = beginning clock (.execute (.block body)) m stack →
    ∃ next, Step clock later next ∧
      now.Opens next later.machine.store.scopes.size later.machine.current body
  /-- A call runs in a new scope inside the one that the function carries. -/
  call {clock : Clock} {f : Closure} {arguments : List Value} {paren : Token} {m : Machine}
    {stack : Stack (.call (.function f) arguments paren)} :
    later = beginning clock (.call (.function f) arguments paren) m stack →
    arguments.length = f.arity →
    ∃ next, Step clock later next ∧
      now.Opens next later.machine.store.scopes.size f.scope f.body

section

variable {made : List Closure} {now later : Moment}

/-- A function that is held or bound is known. -/
lemma WellFormed.knows_handled (h : now.WellFormed made) {f : Closure} (handled : now.Handles f) :
    (now.machine.created made).Knows (.function f) := by
  cases handled with
  | held mem => exact h.known _ mem
  | bound mem => exact h.machine.bound _ _ mem

/-- Nothing refers to a scope that is not there. -/
lemma WellFormed.refers_lt (h : now.WellFormed made) {c : ScopeId} (refers : now.Refers c) :
    c < now.machine.store.scopes.size := by
  cases refers with
  | current => exact h.machine.current
  | underWay mem => exact h.scopes_lt c mem
  | carried handled => exact (h.knows_handled handled _ rfl).1
  | enclosing found =>
    obtain ⟨older, lt⟩ := h.machine.store.enclosing_lt found
    exact Nat.lt_trans older lt

/-- Statements that begin in a scope opened just now begin in one to which nothing refers. -/
lemma opens {clock : Clock} {parent : ScopeId} {bindings : List (String × Value)}
    {body : List Stmt} {m : Machine} {stack : Stack (.executeAll body)}
    (h : now.WellFormed made) (grows : now.machine.store.Grows m.store) :
    now.Opens (beginning clock (.executeAll body) (Eval.opened parent bindings m) stack)
      m.store.scopes.size parent body where
  begins := ⟨clock, _, stack, rfl⟩
  current := rfl
  enclosing := by
    have defined := Store.Grows.defineAll (m.store.child parent).2 m.store.scopes.size bindings
    exact (defined.enclosing Store.size_lt_child).trans Store.enclosing?_child_self
  unreferred refers :=
    absurd (Nat.lt_of_lt_of_le (h.refers_lt refers) grows.size) (Nat.lt_irrefl _)

/-- Sessions come to every machine that programs leave, and from the beginning to the end of all
that the evaluator does, by one moment after the other. At every moment the scopes are in order. -/
theorem scopes_orderly :
    (∀ m, Machine.Reached m → (idle .initial).Leads (idle m)) ∧
      (∀ clock fuel t m stack, ∀ later ∈ ended? t stack (t.run clock fuel m),
        (beginning clock t m stack).Leads later) ∧
      (∀ clock now next other, (∀ m, now ≠ idle m) → Step clock now next → Step clock now other →
        next = other) ∧
      ∀ now later, (idle .initial).Leads now → now.Leads later → now.Orderly later := by
  refine ⟨fun m => leads_of_reached, leads_of_run, fun _ _ _ _ => Step.unique, ?_⟩
  intro now later reached leads
  obtain ⟨made, -, before⟩ := reached.preserves (.idle .initial rfl)
  obtain ⟨made', keeps, after⟩ := leads.preserves before
  have store := after.machine.store
  refine ⟨store, after.refers_lt, after.current, keeps.store, ?_, ?_, ?_, ?_⟩
  · intro f g first second same
    have known := (before.knows_handled first).grow keeps.created
    exact known.same (after.knows_handled second) same
  · intro c lt
    obtain ⟨ps, path, sorted, -, last⟩ := store.path lt
    exact ⟨ps, path, sorted.imp Nat.ne_of_gt, last, store.get?_path path, store.assign_path path⟩
  · rintro clock body m stack rfl
    exact ⟨_, .inside, opens before keeps.store⟩
  · rintro clock f arguments paren m stack rfl arity
    have plan : Task.plan clock (.call (.function f) arguments paren) =
        .inside (some f.scope) ((f.parameters.map (·.lexeme)).zip arguments) f.body
          Completion.value :=
      if_neg (not_not_intro arity)
    rw [beginning, plan]
    exact ⟨_, .inside, opens before keeps.store⟩

/-- A function that is declared outside a block and called inside it runs in a third scope, inside
the globals and not inside the block. -/
theorem scopes_orderly_at_call :
    ∃ paren f m stack next,
      (idle .initial).Leads
          (beginning (fun _ => 0) (.call (.function f) [] paren) m stack) ∧
        m.current = 1 ∧
        Step (fun _ => 0) (beginning (fun _ => 0) (.call (.function f) [] paren) m stack) next ∧
        (idle .initial).Opens next 2 0 [] := by
  let name : Token := ⟨.identifier, "f", none, 1, ⟨0, 1⟩⟩
  let call : Stmt := .expression (.call (.ident name) name [])
  let program : Program := [.function name [] [], .block [call]]
  let clock : Clock := fun _ => 0
  let f : Closure := ⟨name, [], [], 0, 0⟩
  let declared : Machine := ⟨Store.initial.define 0 "f" (.function f), 0, #[], 0, 1⟩
  have begun := (Leads.refl (idle .initial)).step clock (.start program)
  have outside := ((begun.step clock .part).step clock (.result rfl)).step clock .resume
  have inBlock := ((outside.step clock .part).step clock .part).step clock .inside
  have atName := ((inBlock.step clock .part).step clock .part).step clock .part
  have found : Eval.lookup name (Eval.opened 0 [] declared) =
      .ok (.function f) (Eval.opened 0 [] declared) := by
    cbv
  have behindName := (atName.step clock (.result found)).step clock .resume
  have behindArguments := (behindName.step clock .part).step clock (.result rfl)
  have atCall := (behindArguments.step clock .resume).step clock .part
  obtain ⟨next, step, opens⟩ := (scopes_orderly.2.2.2 _ _ (.refl _) atCall).call rfl rfl
  exact ⟨name, f, _, _, next, atCall, rfl, step, opens⟩

end

end Moment

end Lox
