import Lox.Proofs.Confinement.Evaluate

/-!
# Encapsulation

A scope leads to its parent and to the scopes of the functions that are bound in it. What is executed
in a scope depends on and changes only what it leads to: all other scopes keep their bindings, and
whatever they are, the outcome is the same. So a variable that a function has captured can be read or
changed only by code that can get at that function.
-/

namespace Lox

/-- The scopes to which a scope leads: over parents, and over functions to where they were made. -/
inductive Store.Reaches (s : Store) (e : ScopeId) : ScopeId → Prop where
  | refl :
    Reaches s e e
  | parent {c p : ScopeId} :
    Reaches s e c → s.parent? c = some p →
    Reaches s e p
  | closure {c : ScopeId} {name : String} {f : Closure} :
    Reaches s e c → (s.bindings c).get? name = some (.function f) →
    Reaches s e f.scope

/-- Stores with the same scopes, of which those that are seen bind the same. -/
structure Store.AgreeOn (seen : ScopeId → Prop) (s s' : Store) : Prop where
  size : s'.scopes.size = s.scopes.size
  parent (c : ScopeId) : s'.parent? c = s.parent? c
  bound {c : ScopeId} (name : String) :
    seen c → (s'.bindings c).get? name = (s.bindings c).get? name

/-- Machines that differ only in scopes that are not seen. -/
def Machine.AgreeOn (seen : ScopeId → Prop) (m m' : Machine) : Prop :=
  ∃ s', m.store.AgreeOn seen s' ∧ m' = { m with store := s' }

/-- Outcomes with the same value or error, on machines that differ only in scopes that are not
seen. -/
inductive Outcome.AgreeOn {α : Type} (seen : ScopeId → Prop) : Outcome α → Outcome α → Prop where
  | ok {a : α} {m m' : Machine} :
    m.AgreeOn seen m' →
    AgreeOn seen (.ok a m) (.ok a m')
  | error {e : RuntimeError} {m m' : Machine} :
    m.AgreeOn seen m' →
    AgreeOn seen (.error e m) (.error e m')
  | exhausted :
    AgreeOn seen .exhausted .exhausted

/-- The scopes that code in the current scope can get at: those to which it leads, and new ones. -/
def Machine.Open (m : Machine) (c : ScopeId) : Prop :=
  m.store.Reaches m.current c ∨ m.store.scopes.size ≤ c

/-- A computation that depends on and changes only what its scope leads to. -/
structure Eval.Encapsulated {α : Type} (x : Eval α) : Prop where
  /-- All other scopes keep their bindings. -/
  frame (m : Machine) :
    ∀ m' ∈ (x m).machine?, ∀ c < m.store.scopes.size, ¬ m.store.Reaches m.current c →
      m'.store.bindings c = m.store.bindings c
  /-- Whatever is bound in other scopes, it ends in the same way. -/
  agree (m : Machine) (s' : Store) :
    m.store.AgreeOn (m.store.Reaches m.current) s' →
      (x m).AgreeOn m.Open (x { m with store := s' })
  /-- Wherever it ends, nothing more can be reached but new scopes. -/
  reach (m : Machine) :
    ∀ m' ∈ (x m).machine?, ∀ c, m'.store.Reaches m'.current c → m.Open c

/-- All code may be executed, in scopes that are open. -/
def Machine.grant (m : Machine) : Grant :=
  ⟨fun _ => True, fun _ => True, fun _ => trivial, m.Open, True⟩

section

variable {m : Machine} {s' : Store}

/-- What stands in open scopes is granted. -/
lemma Store.AgreeOn.granted (h : m.store.AgreeOn (m.store.Reaches m.current) s') :
    Store.Agree m.grant m.store m.store s' where
  size := h.size
  parent := h.parent
  outwards {c p} inside parent := by
    rcases inside with reached | new
    · exact .inl (reached.parent parent)
    · rw [parent?_of_size_le new] at parent
      cases parent
  bound {c name} inside _ := by
    rcases inside with reached | new
    · exact h.bound name reached
    · rw [bindings_of_size_le new, bindings_of_size_le (h.size ▸ new)]
  within {c name v} inside _ found := by
    rcases inside with reached | new
    · cases v with
      | function f => exact ⟨.inl (reached.closure found), fun _ _ => trivial⟩
      | _ => trivial
    · rw [bindings_of_size_le new] at found
      cases found
  new le := .inr le
  kept _ := rfl

/-- Granted stores agree on the scopes that are open. -/
lemma Store.Agree.agreeOn {s : Store} (h : Store.Agree m.grant m.store s s') :
    s.AgreeOn m.Open s' where
  size := h.size
  parent := h.parent
  bound _ inside := h.bound inside trivial

/-- From an open scope, granted stores lead to open scopes only. -/
lemma Store.Agree.reaches {s : Store} (h : Store.Agree m.grant m.store s s') {e c : ScopeId}
    (inside : m.Open e) (reached : s.Reaches e c) : m.Open c := by
  induction reached with
  | refl => exact inside
  | parent _ parent ih => exact h.outwards ih parent
  | @closure c name f _ found ih =>
    have within := h.within ih trivial found
    exact within.1

/-- Granted computations end alike but for scopes that are not open. -/
lemma Outcome.Agree.agreeOn {α : Type} {Q : α → Prop} {left right : Outcome α}
    (h : Outcome.Agree m.grant m.store Q left right) : left.AgreeOn m.Open right := by
  cases h with
  | ok _ agree => exact .ok ⟨_, agree.store.agreeOn, agree.same⟩
  | error _ _ agree => exact .error ⟨_, agree.store.agreeOn, agree.same⟩
  | exhausted => exact .exhausted

end

namespace Eval

variable {α : Type}

/-- Computations that stay within the grant of any machine are encapsulated. -/
lemma Confined.toEncapsulated {x : Eval α} {Q : Machine → α → Prop}
    (confined : ∀ m : Machine, Confined m.grant m.store (Q m) x x) : Encapsulated x := by
  have started : ∀ (m : Machine) s', m.store.AgreeOn (m.store.Reaches m.current) s' →
      Outcome.Agree m.grant m.store (Q m) (x m) (x { m with store := s' }) :=
    fun m s' h => confined m m _ ⟨h.granted, .inl .refl, rfl⟩
  -- Against itself, a computation says what becomes of its own store.
  have ended : ∀ m : Machine, ∀ m' ∈ (x m).machine?, ∃ m'', m'.Agree m.grant m.store m'' :=
    fun m => (started m m.store ⟨rfl, fun _ => rfl, fun _ _ => rfl⟩).machine?
  refine ⟨fun m m' left c old apart => ?_, fun m s' h => (started m s' h).agreeOn, ?_⟩
  · obtain ⟨m'', agree⟩ := ended m m' left
    have closed : ¬ m.Open c := fun inside => inside.elim apart (Nat.not_le_of_lt old)
    exact agree.store.kept closed
  · intro m m' left c reached
    obtain ⟨m'', agree⟩ := ended m m' left
    exact agree.store.reaches agree.inside reached

/-- Whatever is evaluated or executed depends on and changes only what its scope leads to, whether it
ends, returns or fails. -/
theorem encapsulated (clock : Clock) (fuel : Nat) :
    (∀ e, Encapsulated (evaluate clock fuel e)) ∧ ∀ s, Encapsulated (execute clock fuel s) := by
  have all : ∀ m : Machine, AllConfined m.grant m.store clock clock fuel :=
    fun m => confined m.grant m.store (fun _ => rfl) fuel
  constructor
  · intro e
    exact Confined.toEncapsulated fun m => (all m).evaluate fun _ _ => trivial
  · intro s
    exact Confined.toEncapsulated fun m => (all m).execute fun _ _ => trivial

end Eval

/-- The function `fun flip() { on = !on; print on; }`, made in the scope behind the globals. -/
def Closure.flip : Closure :=
  let token (kind : Kind) (lexeme : String) : Token := ⟨kind, lexeme, none, 1, ⟨0, 0⟩⟩
  let on : Token := token .identifier "on"
  { name := token .identifier "flip"
    parameters := []
    body := [.expression (.assign on (.unary .not (token .bang "!") (.ident on))), .print (.ident on)]
    scope := 1
    serial := 0 }

/-- The statement `flip();`. -/
def Stmt.flip : Stmt :=
  .expression (.call (.ident Closure.flip.name) ⟨.rightParen, ")", none, 1, ⟨0, 0⟩⟩ [])

/-- A machine with a function that has captured a variable, and with a scope to which nothing leads,
which binds the same name. -/
def Machine.captured (hidden : Value) : Machine :=
  ⟨⟨#[⟨[("flip", .function .flip)], none⟩, ⟨[("on", .boolean false)], some Store.globals⟩,
    ⟨[("on", hidden)], some Store.globals⟩]⟩, Store.globals, #[], 0, 1⟩

/-- The globals lead to the captured variable, but not to the hidden one. -/
lemma Machine.captured_reaches {hidden : Value} {c : ScopeId}
    (reached : (captured hidden).store.Reaches Store.globals c) : c < 2 := by
  induction reached with
  | refl => exact Nat.zero_lt_two
  | parent _ parent ih => exact Nat.lt_trans (Store.parent?_lt parent) ih
  | @closure c name f _ found ih =>
    match c, ih with
    | 0, _ =>
      change (if "flip" = name then some (Value.function .flip) else none) = _ at found
      split at found
      · cases found
        exact Nat.one_lt_two
      · cases found
    | 1, _ =>
      change (if "on" = name then some (Value.boolean false) else none) = _ at found
      split at found <;> cases found

/-- Whatever the hidden variable is, the captured one is the same in what can be seen. -/
lemma Machine.captured_agree (hidden hidden' : Value) :
    (captured hidden).store.AgreeOn ((captured hidden).store.Reaches Store.globals)
      (captured hidden').store where
  size := rfl
  parent c := match c with
    | 0 | 1 | 2 | _ + 3 => rfl
  bound {c} _ reached := match c, captured_reaches reached with
    | 0, _ | 1, _ => rfl

/-- A call of the function changes the captured variable and prints it, whatever the hidden one is,
and leaves the hidden one as it is. -/
theorem Eval.flip_encapsulated :
    (Machine.captured .nil).store.AgreeOn
      ((Machine.captured .nil).store.Reaches Store.globals)
      (Machine.captured (.boolean true)).store ∧
    (Machine.captured .nil).store.bindings 2 ≠ (Machine.captured (.boolean true)).store.bindings 2 ∧
    (execute (fun _ => 0) 9 .flip (Machine.captured .nil)).AgreeOn (Machine.captured .nil).Open
      (execute (fun _ => 0) 9 .flip (Machine.captured (.boolean true))) ∧
    ∃ m, execute (fun _ => 0) 9 .flip (Machine.captured .nil) = .ok .normal m ∧
      m.lines = ["true"] ∧ m.store.bindings 1 = [("on", .boolean true)] ∧
      m.store.bindings 2 = (Machine.captured .nil).store.bindings 2 := by
  have agree := Machine.captured_agree .nil (.boolean true)
  have law := (encapsulated (fun _ => 0) 9).2 .flip
  obtain ⟨m, ended, printed, flipped⟩ : ∃ m,
      execute (fun _ => 0) 9 .flip (Machine.captured .nil) = .ok .normal m ∧
        m.lines = ["true"] ∧ m.store.bindings 1 = [("on", .boolean true)] :=
    ⟨_, by cbv, by cbv, by cbv⟩
  have apart : (Machine.captured .nil).store.bindings 2 ≠
      (Machine.captured (.boolean true)).store.bindings 2 := by
    intro same
    cases same
  refine ⟨agree, apart, law.agree _ _ agree, m, ended, printed, flipped, ?_⟩
  have hidden : ¬ (Machine.captured .nil).store.Reaches Store.globals 2 := fun reached =>
    Nat.lt_irrefl 2 (Machine.captured_reaches reached)
  exact law.frame _ m (congrArg Outcome.machine? ended) 2 (by decide) hidden

end Lox
