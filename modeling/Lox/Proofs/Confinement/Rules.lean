import Lox.Proofs.Confinement.Grant
import Lox.Proofs.Machine.Along

/-!
# Rules of confinement

`Eval.Confined g start Q x x'` says that two computations do the same as far as the grant reaches:
on machines whose stores agree for it, they end in the same way, with a result within the grant, on
machines whose stores agree again. There is one rule for each step of the machine and for each way
in which computations are put together.
-/

namespace Lox

/-- Machines that stand in the same granted scope and differ only in stores that agree. -/
structure Machine.Agree (g : Grant) (start : Store) (m m' : Machine) : Prop where
  store : Store.Agree g start m.store m'.store
  inside : g.enters m.current
  same : m' = { m with store := m'.store }

namespace Machine.Agree

variable {g : Grant} {start : Store} {m m' : Machine}

/-- Where all scopes are granted, a machine agrees with itself if nothing that it binds is beyond the
grant. -/
protected lemma refl (entered : ∀ c, g.enters c)
    (within : ∀ {c name v}, g.names name → (m.store.bindings c).get? name = some v → v.Within g) :
    m.Agree g m.store m where
  store :=
    { size := rfl
      parent := fun _ => rfl
      outwards := fun _ _ => entered _
      bound := fun _ _ => rfl
      within := fun _ => within
      new := fun _ => entered _
      kept := fun outside => absurd (entered _) outside }
  inside := entered _
  same := rfl

variable (h : m.Agree g start m')

include h

/-- Both machines may go on in a new scope inside a granted one. -/
lemma opened {parent : ScopeId} {bindings : List (String × Value)} (inside : g.enters parent)
    (granted : ∀ b ∈ bindings, b.2.Within g) :
    (Eval.opened parent bindings m).Agree g start (Eval.opened parent bindings m') := by
  have entered : g.enters m.store.scopes.size := h.store.new (Nat.le_refl _)
  have size := h.store.size
  rw [h.same]
  refine ⟨?_, entered, ?_⟩
  · have bound := (h.store.child inside).defineAll entered granted
    simp only [Eval.opened, Store.child, size] at bound ⊢
    exact bound
  · simp only [Eval.opened, Store.child, size]

/-- Both machines may go back to a granted scope. -/
lemma back {c : ScopeId} (inside : g.enters c) :
    { m with current := c }.Agree g start { m' with current := c } where
  store := h.store
  inside := inside
  same := by rw [h.same]

end Machine.Agree

/-- Outcomes that are the same but for stores that agree, with nothing in them beyond the grant. -/
inductive Outcome.Agree {α : Type} (g : Grant) (start : Store) (Q : α → Prop) :
    Outcome α → Outcome α → Prop where
  | ok {a : α} {m m' : Machine} :
    Q a → m.Agree g start m' →
    Agree g start Q (.ok a m) (.ok a m')
  | error {e : RuntimeError} {m m' : Machine} :
    g.mentions e.token → e.cause.Within g → m.Agree g start m' →
    Agree g start Q (.error e m) (.error e m')
  | exhausted :
    Agree g start Q .exhausted .exhausted

/-- Wherever one of them ends, the other one ends on a machine that agrees. -/
lemma Outcome.Agree.machine? {α : Type} {g : Grant} {start : Store} {Q : α → Prop}
    {left right : Outcome α} (h : Outcome.Agree g start Q left right) :
    ∀ m ∈ left.machine?, ∃ m', m.Agree g start m' := by
  intro m ended
  cases h with
  | ok _ agree =>
    cases ended
    exact ⟨_, agree⟩
  | error _ _ agree =>
    cases ended
    exact ⟨_, agree⟩
  | exhausted => cases ended

namespace Eval

variable {α β : Type} {g : Grant} {start : Store} {Q : α → Prop} {R : β → Prop}

/-- Two computations do the same as far as the grant reaches, and nothing beyond it. -/
def Confined (g : Grant) (start : Store) (Q : α → Prop) (x x' : Eval α) : Prop :=
  ∀ m m', m.Agree g start m' → Outcome.Agree g start Q (x m) (x' m')

namespace Confined

/-- To give a value back is confined to what holds of the value. -/
protected lemma pure {a : α} (q : Q a) : Confined g start Q (pure a) (pure a) :=
  fun _ _ agree => .ok q agree

/-- What is cut off is confined to anything. -/
protected lemma exhausted : Confined g start Q exhausted exhausted :=
  fun _ _ _ => .exhausted

/-- To fail is confined if the token and the values of the error are granted. -/
protected lemma fail {cause : RuntimeCause} {token : Token} (mentioned : g.mentions token)
    (inside : cause.Within g) : Confined g start Q (fail cause token) (fail cause token) :=
  fun _ _ agree => .error mentioned inside agree

/-- A confined computation may be followed by one that is confined for all of its values. -/
protected lemma bind {x x' : Eval α} {f f' : α → Eval β} (first : Confined g start Q x x')
    (second : ∀ a, Q a → Confined g start R (f a) (f' a)) :
    Confined g start R (x >>= f) (x' >>= f') := by
  intro m m' agree
  rw [bind_apply, bind_apply]
  have ended := first m m' agree
  generalize x m = left at ended
  generalize x' m' = right at ended
  cases ended with
  | ok q agree => exact second _ q _ _ agree
  | error mentioned inside agree => exact .error mentioned inside agree
  | exhausted => exact .exhausted

/-- An operation that gives granted values and errors is confined at a granted token. -/
protected lemma atToken {token : Token} {r : Except RuntimeCause Value}
    (mentioned : g.mentions token) (inside : Value.ResultWithin g r) :
    Confined g start (Value.Within g) (atToken token r) (atToken token r) := by
  cases r with
  | ok v => exact .pure inside
  | error cause => exact .fail mentioned inside

/-- Names of the code mean the same, and only what is within the grant. -/
protected lemma lookup {name : Token} (mentioned : g.mentions name) :
    Confined g start (Value.Within g) (lookup name) (lookup name) := by
  intro m m' agree
  have found := agree.store.lookup agree.inside (g.named mentioned)
  have same := congrArg Machine.current agree.same
  simp only [Eval.lookup, same, found.1]
  cases value : m.store.get? m.current name.lexeme with
  | some v => exact .ok (found.2 v value) agree
  | none => exact .error mentioned trivial agree

/-- To declare a name is confined if its value is. -/
protected lemma define (name : Token) {v : Value} (inside : v.Within g) :
    Confined g start (fun _ => True) (define name v) (define name v) := by
  intro m m' agree
  rw [agree.same]
  exact .ok trivial ⟨agree.store.define name.lexeme agree.inside inside, agree.inside, rfl⟩

/-- To assign a granted value to a granted name is confined. -/
protected lemma assign {name : Token} {v : Value} (mentioned : g.mentions name)
    (inside : v.Within g) :
    Confined g start (fun _ => True) (assign name v) (assign name v) := by
  intro m m' agree
  obtain ⟨found, after⟩ := agree.store.assign agree.inside (g.named mentioned) inside
  have left : (⟨(m.store.assign m.current name.lexeme v).1, m.current, m.printed, m.readings,
      m.serial⟩ : Machine).Agree g start ⟨(m'.store.assign m.current name.lexeme v).1, m.current,
        m.printed, m.readings, m.serial⟩ := ⟨after, agree.inside, rfl⟩
  rw [agree.same]
  simp only [Eval.assign, found]
  cases (m.store.assign m.current name.lexeme v).2 with
  | true => exact .ok trivial left
  | false => exact .error mentioned trivial left

/-- To print is confined, since printed values are in no scope. -/
protected lemma print (v : Value) :
    Confined g start (fun _ => True) (print v) (print v) := by
  intro m m' agree
  rw [agree.same]
  exact .ok trivial ⟨agree.store, agree.inside, rfl⟩

/-- To read the clock is confined, since both runs get the same answer. -/
protected lemma readClock (clock : Clock) :
    Confined g start (fun _ => True) (readClock clock) (readClock clock) := by
  intro m m' agree
  rw [agree.same]
  exact .ok trivial ⟨agree.store, agree.inside, rfl⟩

/-- A function of granted code that is made in a granted scope is within the grant. -/
protected lemma closure {name : Token} {parameters : List Token} {body : List Stmt}
    (mentioned : ∀ t ∈ name :: (parameters ++ Stmt.tokensAll body), g.mentions t) :
    Confined g start (Value.Within g) (closure name parameters body)
      (closure name parameters body) := by
  intro m m' agree
  rw [agree.same]
  exact .ok ⟨agree.inside, mentioned⟩ ⟨agree.store, agree.inside, rfl⟩

/-- The current scope is one that may be entered. -/
protected lemma current : Confined g start g.enters current current := by
  intro m m' agree
  rw [agree.same]
  exact .ok agree.inside ⟨agree.store, agree.inside, rfl⟩

/-- A new scope inside a granted one is granted, and so is the one that is restored. -/
protected lemma inScope {parent : ScopeId} {bindings : List (String × Value)} {x x' : Eval α}
    (inside : g.enters parent) (granted : ∀ b ∈ bindings, b.2.Within g)
    (inner : Confined g start Q x x') :
    Confined g start Q (inScope parent bindings x) (inScope parent bindings x') := by
  intro m m' agree
  have ended := inner _ _ (agree.opened inside granted)
  have same := congrArg Machine.current agree.same
  rw [inScope_apply, inScope_apply, same]
  generalize x (opened parent bindings m) = left at ended
  generalize x' (opened parent bindings m') = right at ended
  cases ended with
  | ok q agree' => exact .ok q (agree'.back agree.inside)
  | error mentioned cause agree' => exact .error mentioned cause (agree'.back agree.inside)
  | exhausted => exact .exhausted

section

variable {x : Eval α} {m m' : Machine} (h : Confined g start Q x x) (agree : m.Agree g start m)

include h agree

/-- A computation that is confined ends on a machine within the grant, with a result within it. -/
lemma of_ok {a : α} (ended : x m = .ok a m') : Q a ∧ m'.Agree g start m' := by
  have behind := h m m agree
  rw [ended] at behind
  cases behind with | ok q after => exact ⟨q, after⟩

/-- If it fails, it is with an error within the grant. -/
lemma of_error {e : RuntimeError} (failed : x m = .error e m') :
    e.cause.Within g ∧ m'.Agree g start m' := by
  have behind := h m m agree
  rw [failed] at behind
  cases behind with | error _ cause after => exact ⟨cause, after⟩

end

end Confined

end Eval

end Lox
