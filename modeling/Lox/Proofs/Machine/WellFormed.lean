import Lox.Proofs.Machine.Moments
import Lox.Proofs.Store.WellFormed
import Mathlib.Data.List.Infix

/-!
# Scopes and functions at every moment

Whatever a plan does to a machine in a scope of a well-formed store, it only opens scopes inside
scopes that exist, and only handles functions that were made before and carry scopes that exist.
`Plan.Safe` says so of a plan. It is shown once for each construct of the language, and all else is
about plans.
-/

namespace Lox

/-- How many scopes there are, and the functions made so far, in the order of their serial
numbers. -/
structure Created where
  scopes : Nat
  functions : List Closure

namespace Created

/-- Nothing is taken back. -/
structure Grows (w w' : Created) : Prop where
  scopes : w.scopes ≤ w'.scopes
  functions : w.functions <+: w'.functions

/-- If the value is a function, it is one of those made, and it carries a scope that exists. -/
def Knows (w : Created) (v : Value) : Prop :=
  ∀ f, v = .function f → f.scope < w.scopes ∧ w.functions[f.serial]? = some f

variable {w w' w'' : Created} {v : Value}

/-- Nothing is taken back from what has been created. -/
lemma Grows.refl (w : Created) : w.Grows w :=
  ⟨Nat.le_refl _, List.prefix_rfl⟩

/-- Nothing is taken back if nothing is by way of something else. -/
lemma Grows.trans (first : w.Grows w') (second : w'.Grows w'') : w.Grows w'' :=
  ⟨Nat.le_trans first.scopes second.scopes, first.functions.trans second.functions⟩

/-- A value stays known while more is created. -/
lemma Knows.grow (known : w.Knows v) (grows : w.Grows w') : w'.Knows v := by
  intro f same
  obtain ⟨lt, made⟩ := known f same
  obtain ⟨more, all⟩ := grows.functions
  refine ⟨Nat.lt_of_lt_of_le lt grows.scopes, ?_⟩
  obtain ⟨bound, -⟩ := List.getElem?_eq_some_iff.mp made
  rw [← all, List.getElem?_append_left bound]
  exact made

/-- A function is known by its serial number. -/
lemma Knows.same {f g : Closure} (left : w.Knows (.function f)) (right : w.Knows (.function g))
    (serial : f.serial = g.serial) : f = g := by
  have first := (left f rfl).2
  rw [serial, (right g rfl).2] at first
  exact (Option.some.inj first).symm

end Created

/-- The value is no function of a program. -/
def Value.Plain : Value → Prop
  | .function _ => False
  | _ => True

/-- A value that is no function of a program is known anyway. -/
lemma Value.Plain.known {v : Value} (plain : v.Plain) (w : Created) : w.Knows v := by
  rintro f rfl
  exact plain.elim

/-- Literals are no functions. -/
lemma Atom.value_plain (atom : Atom) : atom.value.Plain := by
  cases atom <;> trivial

/-- The values that an error is about. -/
def RuntimeCause.values : RuntimeCause → List Value
  | notNumber v | notCallable v => [v]
  | notNumbers u v | notAddable u v => [u, v]
  | undefinedVariable _ | wrongArity _ _ => []

/-- An operation makes no function, and its error is about its operands. -/
inductive Value.Operates (operands : List Value) : Except RuntimeCause Value → Prop where
  | ok {v : Value} :
    v.Plain →
    Operates operands (.ok v)
  | error {cause : RuntimeCause} :
    cause.values = operands →
    Operates operands (.error cause)

namespace Value

/-- An operator in front makes no function. -/
lemma unary_operates (v : Value) (op : PrefixOp) : Operates [v] (v.unary op) := by
  cases op with
  | not => exact .ok trivial
  | negate =>
    cases v with
    | number x => exact .ok trivial
    | _ => exact .error rfl

/-- An operation on numbers makes no function if it gives none. -/
lemma numeric_operates (u v : Value) {f : Float → Float → Value} (plain : ∀ x y, (f x y).Plain) :
    Operates [u, v] (u.numeric f v) := by
  unfold numeric
  split
  · exact .ok (plain _ _)
  · exact .error rfl

/-- A sum makes no function. -/
lemma add_operates (u v : Value) : Operates [u, v] (u.add v) := by
  unfold add
  split
  · exact .ok trivial
  · exact .ok trivial
  · exact .error rfl

/-- A quotient is no function. -/
lemma quotient_plain (x y : Float) : (quotient x y).Plain := by
  unfold quotient
  split
  · trivial
  · trivial

/-- An operator between operands makes no function. -/
lemma binary_operates (u v : Value) (op : BinaryOp) : Operates [u, v] (u.binary op v) := by
  cases op with
  | add => exact add_operates u v
  | divide => exact numeric_operates u v quotient_plain
  | equal => exact .ok trivial
  | notEqual => exact .ok trivial
  | _ => exact numeric_operates u v fun _ _ => trivial

end Value

namespace Machine

variable {m m' m'' : Machine} {made made' made'' : List Closure}

/-- What has been created when the functions made so far are these. -/
def created (m : Machine) (made : List Closure) : Created :=
  ⟨m.store.scopes.size, made⟩

/-- The machine stands in a scope of a well-formed store, which binds known functions only, and it
counts the functions made. -/
structure WellFormed (m : Machine) (made : List Closure) : Prop where
  store : m.store.WellFormed
  current : m.current < m.store.scopes.size
  bound : m.store.BindsOnly (m.created made).Knows
  serial : made.length = m.serial

/-- The second machine has all the scopes and functions that the first one has. -/
structure Keeps (m : Machine) (made : List Closure) (m' : Machine) (made' : List Closure) :
    Prop where
  store : m.store.Grows m'.store
  functions : made <+: made'

/-- The second machine also stands in the same scope. -/
structure Leaves (m : Machine) (made : List Closure) (m' : Machine) (made' : List Closure) : Prop
    extends Keeps m made m' made' where
  same : m'.current = m.current

/-- A machine that has done nothing yet is well formed, without functions. -/
lemma WellFormed.initial : WellFormed .initial [] where
  store := .initial
  current := by decide
  serial := rfl
  bound c b mem := by
    cases c with
    | zero =>
      obtain rfl := List.mem_singleton.mp mem
      apply Value.Plain.known
      trivial
    | succ c => exact absurd mem List.not_mem_nil

namespace Keeps

/-- Functions are kept if only the store grows. -/
lemma of_grows (grows : m.store.Grows m'.store) : m.Keeps made m' made :=
  ⟨grows, List.prefix_rfl⟩

/-- A machine keeps its own scopes and functions. -/
lemma refl (m : Machine) (made : List Closure) : m.Keeps made m made :=
  of_grows (.refl _)

/-- Scopes and functions are kept if they are by way of another machine. -/
lemma trans (first : m.Keeps made m' made') (second : m'.Keeps made' m'' made'') :
    m.Keeps made m'' made'' :=
  ⟨first.store.trans second.store, first.functions.trans second.functions⟩

/-- Nothing is taken back from what has been created. -/
lemma created (keeps : m.Keeps made m' made') : (m.created made).Grows (m'.created made') :=
  ⟨keeps.store.size, keeps.functions⟩

end Keeps

namespace Leaves

/-- A machine is left by doing nothing. -/
lemma refl (m : Machine) (made : List Closure) : m.Leaves made m made :=
  ⟨.refl m made, rfl⟩

/-- What is done in two steps leaves what the second one leaves. -/
lemma trans (first : m.Leaves made m' made') (second : m'.Leaves made' m'' made'') :
    m.Leaves made m'' made'' :=
  ⟨first.toKeeps.trans second.toKeeps, second.same.trans first.same⟩

end Leaves

end Machine

/-- A computation that finds `m` leaves it well formed, and the values in its result, or in its
error, are known. -/
inductive Outcome.Sound {α : Type} (values : α → List Value) (m : Machine) (made : List Closure) :
    Outcome α → Prop where
  | ok {a : α} {m' : Machine} {made' : List Closure} :
    m.Leaves made m' made' → m'.WellFormed made' → (∀ v ∈ values a, (m'.created made').Knows v) →
    Sound values m made (.ok a m')
  | error {e : RuntimeError} {m' : Machine} {made' : List Closure} :
    m.Leaves made m' made' → m'.WellFormed made' →
    (∀ v ∈ e.cause.values, (m'.created made').Knows v) →
    Sound values m made (.error e m')

namespace Eval

variable {α β : Type} {w : Created} {values : α → List Value} {values' : β → List Value} {v : Value}

/-- The computation is sound on all machines that have what has been created. -/
def Sound (values : α → List Value) (x : Eval α) (w : Created) : Prop :=
  ∀ m made, m.WellFormed made → w.Grows (m.created made) → Outcome.Sound values m made (x m)

namespace Sound

/-- To give a known value back is sound. -/
protected lemma pure {a : α} (known : ∀ v ∈ values a, w.Knows v) : Sound values (pure a) w :=
  fun m made h grows => .ok (.refl m made) h fun v mem => (known v mem).grow grows

/-- To fail is sound if the error is about known values. -/
protected lemma fail {cause : RuntimeCause} (token : Token)
    (known : ∀ v ∈ cause.values, w.Knows v) : Sound values (fail cause token) w :=
  fun m made h grows => .error (.refl m made) h fun v mem => (known v mem).grow grows

/-- A sound computation may be followed by one that is sound for the values it knows. -/
protected lemma bind {x : Eval α} {f : α → Eval β} (first : Sound values x w)
    (second : ∀ a w', w.Grows w' → (∀ v ∈ values a, w'.Knows v) → Sound values' (f a) w') :
    Sound values' (x >>= f) w := by
  intro m made h grows
  have ended := first m made h grows
  rw [bind_apply]
  generalize x m = o at ended
  cases ended with
  | ok leaves after known =>
    have behind := second _ _ (grows.trans leaves.created) known _ _ after (.refl _)
    dsimp only
    generalize f _ _ = o at behind
    cases behind with
    | ok leaves' after' known' => exact .ok (leaves.trans leaves') after' known'
    | error leaves' after' known' => exact .error (leaves.trans leaves') after' known'
  | error leaves after known => exact .error leaves after known

/-- An operation on known values is sound. -/
protected lemma atToken {operands : List Value} {r : Except RuntimeCause Value} (token : Token)
    (operates : Value.Operates operands r) (known : ∀ v ∈ operands, w.Knows v) :
    Sound (fun v => [v]) (atToken token r) w := by
  cases operates with
  | ok plain => exact .pure (List.forall_mem_singleton.mpr (plain.known w))
  | error same =>
    subst same
    exact .fail token known

/-- To read a variable is sound, since scopes bind known functions only. -/
protected lemma lookup (name : Token) : Sound (fun v => [v]) (lookup name) w := by
  intro m made h grows
  rw [Eval.lookup]
  cases found : m.store.get? m.current name.lexeme with
  | some v => exact .ok (.refl m made) h (List.forall_mem_singleton.mpr (h.bound.get? found))
  | none => exact .error (.refl m made) h (List.forall_mem_nil _)

/-- A machine in which a scope has a name bound to a known value. -/
lemma defined {m : Machine} {made : List Closure} (h : m.WellFormed made)
    (known : (m.created made).Knows v) (c : ScopeId) (name : String) :
    m.Leaves made { m with store := m.store.define c name v } made ∧
      { m with store := m.store.define c name v }.WellFormed made := by
  have same : ({ m with store := m.store.define c name v } : Machine).created made =
      m.created made :=
    congrArg (Created.mk · made) Store.size_define
  refine ⟨⟨.of_grows (.define m.store c name v), rfl⟩, ?_⟩
  constructor
  · exact h.store.define c name v
  · exact Nat.lt_of_lt_of_eq h.current Store.size_define.symm
  · rw [same]
    exact h.bound.define known c name
  · exact h.serial

/-- To declare a name is sound if its value is known. -/
protected lemma define (name : Token) (known : w.Knows v) :
    Sound (fun _ => []) (define name v) w := by
  intro m made h grows
  obtain ⟨leaves, after⟩ := defined h (known.grow grows) m.current name.lexeme
  exact .ok leaves after (List.forall_mem_nil _)

/-- To assign a value is sound if it is known. -/
protected lemma assign (name : Token) (known : w.Knows v) :
    Sound (fun _ => []) (assign name v) w := by
  intro m made h grows
  obtain ⟨leaves, after⟩ : m.Leaves made
      { m with store := (m.store.assign m.current name.lexeme v).1 } made ∧
      { m with store := (m.store.assign m.current name.lexeme v).1 }.WellFormed made := by
    rcases m.store.assign_cases m.current name.lexeme v with same | ⟨d, same⟩
    · rw [same]
      exact ⟨.refl m made, h⟩
    · rw [same]
      exact defined h (known.grow grows) d name.lexeme
  dsimp only [Eval.assign]
  split
  · exact .ok leaves after (List.forall_mem_nil _)
  · exact .error leaves after (List.forall_mem_nil _)

/-- To print is sound. -/
protected lemma print (v : Value) : Sound (fun _ => []) (print v) w :=
  fun _ _ h _ =>
    .ok ⟨.of_grows (.refl _), rfl⟩ ⟨h.store, h.current, h.bound, h.serial⟩
      (List.forall_mem_nil _)

/-- To read the clock is sound. -/
protected lemma readClock (clock : Clock) : Sound (fun _ => []) (readClock clock) w :=
  fun _ _ h _ =>
    .ok ⟨.of_grows (.refl _), rfl⟩ ⟨h.store, h.current, h.bound, h.serial⟩
      (List.forall_mem_nil _)

/-- A new function carries the current scope, and no function has had its serial number. -/
protected lemma closure (name : Token) (parameters : List Token) (body : List Stmt) :
    Sound (fun v => [v]) (closure name parameters body) w := by
  intro m made h _
  have more : made <+: made ++ [⟨name, parameters, body, m.current, m.serial⟩] :=
    List.prefix_append _ _
  refine .ok ⟨⟨.refl _, more⟩, rfl⟩ ⟨h.store, h.current, ?_, ?_⟩ ?_
  · exact h.bound.mono fun v known => known.grow ⟨Nat.le_refl _, more⟩
  · rw [List.length_append, h.serial]
    rfl
  · rw [List.forall_mem_singleton]
    rintro _ ⟨⟩
    refine ⟨h.current, ?_⟩
    show (made ++ [_])[m.serial]? = _
    rw [← h.serial]
    exact List.getElem?_concat_length

end Sound

/-- The machine in a new scope is well formed if the new scope is inside one that exists. -/
lemma opened_wellFormed {m : Machine} {made : List Closure} {parent : ScopeId}
    {bindings : List (String × Value)} (h : m.WellFormed made) (lt : parent < m.store.scopes.size)
    (known : ∀ b ∈ bindings, (m.created made).Knows b.2) :
    m.Keeps made (opened parent bindings m) made ∧ (opened parent bindings m).WellFormed made := by
  have child := Store.Grows.child m.store parent
  have defined := Store.Grows.defineAll (m.store.child parent).2 m.store.scopes.size bindings
  have keeps : m.Keeps made (opened parent bindings m) made := .of_grows (child.trans defined)
  have current := Nat.lt_of_lt_of_le Store.size_lt_child defined.size
  refine ⟨keeps, (h.store.child lt).defineAll _, current, ?_, h.serial⟩
  apply Store.BindsOnly.defineAll
  · exact (h.bound.child parent).mono fun v inside => inside.grow keeps.created
  · exact fun b mem => (known b mem).grow keeps.created

end Eval

namespace Plan

variable {α : Type} {w : Created}

/-- Whatever else will have been created by then, the steps of the plan are sound, its tasks are
about known values, and its new scopes are inside scopes that exist. -/
def Safe (values : α → List Value) : Plan α → Created → Prop
  | last x, w => Eval.Sound values x w
  | part t next, w =>
    (∀ v ∈ t.operands, w.Knows v) ∧
      ∀ result (w' : Created), w.Grows w' → (∀ v ∈ t.yields result, w'.Knows v) →
        (next result).Safe values w'
  | inside parent bindings _ finish, w =>
    (∀ p ∈ parent, p < w.scopes) ∧ (∀ b ∈ bindings, w.Knows b.2) ∧
      ∀ completion (w' : Created), (∀ v ∈ Completion.values completion, w'.Knows v) →
        ∀ v ∈ values (finish completion), w'.Knows v

/-- A task that is about no values goes first. -/
lemma Safe.part {values : α → List Value} {t : Task} {next : t.Result → Plan α}
    (free : t.operands = [])
    (behind : ∀ result (w' : Created), w.Grows w' → (∀ v ∈ t.yields result, w'.Knows v) →
      (next result).Safe values w') :
    (Plan.part t next).Safe values w := by
  refine ⟨?_, behind⟩
  rw [free]
  exact List.forall_mem_nil _

/-- A task with known operands is a safe plan. -/
lemma Safe.whole {t : Task} (known : ∀ v ∈ t.operands, w.Knows v) : (whole t).Safe t.yields w :=
  ⟨known, fun _ _ _ known => .pure known⟩

/-- A plan that depends on a condition is safe if both of its branches are. -/
lemma Safe.ite {values : α → List Value} {c : Prop} [Decidable c] {p q : Plan α}
    (left : p.Safe values w) (right : q.Safe values w) : (if c then p else q).Safe values w := by
  split
  · exact left
  · exact right

/-- What follows a statement is safe, also if the statement has returned a known value. -/
lemma Safe.unless {next : Plan Completion} (safe : next.Safe Completion.values w)
    {completion : Completion} (known : ∀ v ∈ completion.values, w.Knows v) :
    (next.unless completion).Safe Completion.values w := by
  cases completion with
  | normal => exact safe
  | returned value => exact .pure known

end Plan

section

variable {w : Created}

/-- The plan of an expression is safe. -/
lemma Expr.plan_safe (e : Expr) : e.plan.Safe (fun v => [v]) w := by
  have evaluated (e : Expr) {w : Created} : (Plan.whole (.evaluate e)).Safe (fun v => [v]) w :=
    Plan.Safe.whole (List.forall_mem_nil _)
  cases e with
  | literal atom =>
    apply Eval.Sound.pure
    exact List.forall_mem_singleton.mpr (atom.value_plain.known w)
  | group inner => exact evaluated inner
  | ident name => exact .lookup name
  | assign name value =>
    apply Plan.Safe.part rfl
    intro v w' _ known
    apply Eval.Sound.bind (.assign name (known v List.mem_cons_self))
    exact fun _ _ grows _ => .pure fun u mem => (known u mem).grow grows
  | unary op token operand =>
    apply Plan.Safe.part rfl
    intro v w' _ known
    exact .atToken token (v.unary_operates op) known
  | binary op token left right =>
    apply Plan.Safe.part rfl
    intro u w' _ first
    apply Plan.Safe.part rfl
    intro v w'' grows second
    apply Eval.Sound.atToken token (u.binary_operates v op)
    rw [List.forall_mem_cons]
    exact ⟨(first u List.mem_cons_self).grow grows, second⟩
  | logical op token left right =>
    apply Plan.Safe.part rfl
    intro u w' _ known
    exact .ite (.pure known) (evaluated right)
  | call callee paren arguments =>
    apply Plan.Safe.part rfl
    intro f w' _ first
    apply Plan.Safe.part rfl
    intro vs w'' grows others
    apply Plan.Safe.whole
    rw [Task.operands, List.forall_mem_cons]
    exact ⟨(first f List.mem_cons_self).grow grows, others⟩

/-- The plan of some expressions is safe. -/
lemma Expr.planAll_safe (es : List Expr) : (planAll es).Safe id w := by
  cases es with
  | nil => exact .pure (List.forall_mem_nil _)
  | cons e rest =>
    apply Plan.Safe.part rfl
    intro v w' _ first
    apply Plan.Safe.part rfl
    intro vs w'' grows others
    apply Eval.Sound.pure
    rw [id, List.forall_mem_cons]
    exact ⟨(first v List.mem_cons_self).grow grows, others⟩

/-- The new scope of a call is inside the one that the function carries. -/
lemma Value.callPlan_safe {clock : Clock} {callee : Value} {arguments : List Value} {paren : Token}
    (known : ∀ v ∈ callee :: arguments, w.Knows v) :
    (callee.callPlan clock arguments paren).Safe (fun v => [v]) w := by
  obtain ⟨itself, others⟩ := List.forall_mem_cons.mp known
  have plain (v : Value) (w : Created) (h : v.Plain) : ∀ u ∈ [v], w.Knows u :=
    List.forall_mem_singleton.mpr (h.known w)
  have failed (cause : RuntimeCause) (known : ∀ v ∈ cause.values, w.Knows v) :
      Plan.Safe (fun v => [v]) (.last (Eval.fail cause paren)) w :=
    Eval.Sound.fail paren known
  cases callee with
  | native builtin serial =>
    cases builtin
    apply Plan.Safe.ite (failed _ (List.forall_mem_nil _))
    exact .bind (.readClock clock) fun _ w' _ _ => .pure (plain _ w' trivial)
  | function f =>
    apply Plan.Safe.ite (failed _ (List.forall_mem_nil _))
    refine ⟨?_, ?_, ?_⟩
    · rintro _ ⟨⟩
      exact (itself f rfl).1
    · exact fun b mem => others b.2 (List.of_mem_zip mem).2
    · intro completion w' ended
      cases completion with
      | normal => exact plain _ w' trivial
      | returned v => exact ended
  | _ => exact failed _ (List.forall_mem_singleton.mpr itself)

/-- The plan of a statement is safe. -/
lemma Stmt.plan_safe (s : Stmt) : s.plan.Safe Completion.values w := by
  have finished {w : Created} : Plan.Safe Completion.values (.last (pure .normal)) w :=
    Eval.Sound.pure (List.forall_mem_nil _)
  have nil : Value.nil.Plain := trivial
  have executed (s : Stmt) {w : Created} : (Plan.whole (.execute s)).Safe Completion.values w :=
    Plan.Safe.whole (List.forall_mem_nil _)
  cases s with
  | var name initializer =>
    cases initializer with
    | none => exact .bind (.define name (nil.known w)) fun _ _ _ _ => finished
    | some e =>
      apply Plan.Safe.part rfl
      intro v w' _ known
      exact .bind (.define name (known v List.mem_cons_self)) fun _ _ _ _ => finished
  | function name parameters body =>
    apply Eval.Sound.bind (.closure name parameters body)
    intro f w' _ known
    exact .bind (.define name (known f List.mem_cons_self)) fun _ _ _ _ => finished
  | expression e => exact .part rfl fun _ _ _ _ => finished
  | print e => exact .part rfl fun v _ _ _ => .bind (.print v) fun _ _ _ _ => finished
  | block body => exact ⟨nofun, List.forall_mem_nil _, fun _ _ known => known⟩
  | ifThen condition thenBranch =>
    exact .part rfl fun v w' _ _ => .ite (executed thenBranch) finished
  | ifElse condition thenBranch elseBranch =>
    exact .part rfl fun v w' _ _ => .ite (executed thenBranch) (executed elseBranch)
  | loop condition step body =>
    cases step with
    | none =>
      rw [Stmt.plan]
      apply Plan.Safe.part rfl
      intro v w' _ _
      apply Plan.Safe.ite _ finished
      apply Plan.Safe.part rfl
      intro completion w'' _
      exact .unless (executed (.loop condition none body))
    | some step =>
      rw [Stmt.plan]
      apply Plan.Safe.part rfl
      intro v w' _ _
      apply Plan.Safe.ite _ finished
      apply Plan.Safe.part rfl
      intro completion w'' _
      apply Plan.Safe.unless
      apply Plan.Safe.part rfl
      intro _ _ _ _
      exact executed (.loop condition (some step) body)
  | ret keyword value =>
    cases value with
    | none => exact .pure (List.forall_mem_singleton.mpr (nil.known w))
    | some e => exact .part rfl fun v _ _ known => .pure known

/-- The plan of some statements is safe. -/
lemma Stmt.planAll_safe (ss : List Stmt) : (planAll ss).Safe Completion.values w := by
  cases ss with
  | nil => exact .pure (List.forall_mem_nil _)
  | cons s rest =>
    apply Plan.Safe.part rfl
    intro completion w' _
    apply Plan.Safe.unless
    exact Plan.Safe.whole (t := .executeAll rest) (List.forall_mem_nil _)

/-- The plan of a task about known values is safe. -/
lemma Task.plan_safe {clock : Clock} (t : Task) (known : ∀ v ∈ t.operands, w.Knows v) :
    (t.plan clock).Safe t.yields w := by
  cases t with
  | evaluate e => exact e.plan_safe
  | evaluateAll es => exact Expr.planAll_safe es
  | call callee arguments paren => exact Value.callPlan_safe known
  | execute s => exact s.plan_safe
  | executeAll ss => exact Stmt.planAll_safe ss

end

end Lox
