import Lox.Machine.Evaluate
import Lox.Proofs.Store.Frame
import Lox.Proofs.Syntax.Tokens

/-!
# What a computation may handle

A grant says which tokens may stand in the code that a computation executes, which names this code
may look up and in which scopes, and whether host functions may be held. A value is within the grant
if calling it leads to nothing else. Two stores agree for a grant if they are the same as far as it
reaches, what can be reached from there is within it, and all scopes to come are too; outside it, a
store is what it was at the beginning. Operations on stores keep to that as long as they are used
within the grant.
-/

namespace Lox

/-- What a computation may handle. -/
structure Grant where
  /-- The tokens of the code that may be executed. -/
  mentions : Token → Prop
  /-- The names that may be looked up. -/
  names : String → Prop
  named {t : Token} : mentions t → names t.lexeme
  /-- The scopes in which names may be looked up. -/
  enters : ScopeId → Prop
  /-- Whether host functions may be held. -/
  hosts : Prop

/-- Calling the value leads to granted code and scopes only. -/
def Value.Within (g : Grant) : Value → Prop
  | .function f => g.enters f.scope ∧ ∀ t ∈ f.tokens, g.mentions t
  | .native _ _ => g.hosts
  | .number _ | .string _ | .nil | .boolean _ => True

/-- The values in the cause are within the grant. -/
def RuntimeCause.Within (g : Grant) : RuntimeCause → Prop
  | .notNumber v | .notCallable v => v.Within g
  | .notNumbers u v | .notAddable u v => u.Within g ∧ v.Within g
  | .undefinedVariable _ | .wrongArity _ _ => True

/-- The value that is returned, if any, is within the grant. -/
def Completion.Within (g : Grant) : Completion → Prop
  | .normal => True
  | .returned v => v.Within g

/-- The result of an operation is within the grant, whether it is a value or an error. -/
def Value.ResultWithin (g : Grant) : Except RuntimeCause Value → Prop
  | .ok v => v.Within g
  | .error cause => cause.Within g

section

variable {g : Grant} {u v : Value}

/-- The value of a call is within the grant if the way in which its body ended is. -/
lemma Completion.Within.value {completion : Completion} (h : completion.Within g) :
    completion.value.Within g := by
  cases completion with
  | normal => trivial
  | returned v => exact h

/-- Literals are within any grant. -/
lemma Atom.value_within (atom : Atom) : atom.value.Within g := by
  cases atom <;> trivial

/-- An operator in front of a granted value gives a granted value or error. -/
lemma Value.Within.unary (h : v.Within g) (op : PrefixOp) : ResultWithin g (v.unary op) := by
  cases op with
  | not => trivial
  | negate => cases v <;> exact h

/-- An operation on numbers gives a granted value or error if it makes granted values. -/
lemma Value.Within.numeric (left : u.Within g) (right : v.Within g) {f : Float → Float → Value}
    (made : ∀ x y, (f x y).Within g) : ResultWithin g (u.numeric f v) := by
  unfold Value.numeric
  split
  · exact made _ _
  · exact ⟨left, right⟩

/-- A sum of granted values is granted, and so is the error if there is none. -/
lemma Value.Within.add (left : u.Within g) (right : v.Within g) : ResultWithin g (u.add v) := by
  unfold Value.add
  split
  · trivial
  · trivial
  · exact ⟨left, right⟩

/-- Operations make no functions. -/
lemma Value.Within.binary (left : u.Within g) (right : v.Within g) (op : BinaryOp) :
    ResultWithin g (u.binary op v) := by
  have quotient : ∀ x y, (Value.quotient x y).Within g := by
    intro x y
    unfold Value.quotient
    split
    · trivial
    · trivial
  cases op with
  | add => exact left.add right
  | divide => exact left.numeric right quotient
  | equal => trivial
  | notEqual => trivial
  | _ => exact left.numeric right fun _ _ => trivial

end

/-- Two stores agree as far as the grant reaches, from where nothing leads outside it, and outside it
the first one is still as it was at the beginning. -/
structure Store.Agree (g : Grant) (start s s' : Store) : Prop where
  size : s'.scopes.size = s.scopes.size
  parent (c : ScopeId) : s'.parent? c = s.parent? c
  outwards {c p : ScopeId} : g.enters c → s.parent? c = some p → g.enters p
  bound {c : ScopeId} {name : String} : g.enters c → g.names name →
    (s'.bindings c).get? name = (s.bindings c).get? name
  within {c : ScopeId} {name : String} {v : Value} : g.enters c → g.names name →
    (s.bindings c).get? name = some v → v.Within g
  new {c : ScopeId} : s.scopes.size ≤ c → g.enters c
  kept {c : ScopeId} : ¬ g.enters c → s.bindings c = start.bindings c

namespace Store.Agree

variable {g : Grant} {start s s' : Store} {c : ScopeId} {name : String} {v : Value}
  (h : Agree g start s s')

include h

/-- A name means the same in both stores, and a value within the grant if it means any. -/
lemma lookup (inside : g.enters c) (named : g.names name) :
    s'.get? c name = s.get? c name ∧ ∀ v, s.get? c name = some v → v.Within g := by
  -- Along the walk outwards, which never leaves the grant.
  induction size : c using Nat.strongRecOn generalizing c with
  | ind n ih =>
    subst size
    rw [get?_eq, get?_eq s, h.bound inside named, h.parent]
    cases found : (s.bindings c).get? name with
    | some u =>
      rw [Option.some_or, Option.some_or]
      refine ⟨rfl, fun v same => ?_⟩
      cases same
      exact h.within inside named found
    | none =>
      rw [Option.none_or, Option.none_or]
      cases parent : s.parent? c with
      | none => exact ⟨rfl, nofun⟩
      | some p => exact ih p (parent?_lt parent) (h.outwards inside parent) rfl

/-- Values within the grant may be bound in its scopes. -/
lemma define (name : String) (inside : g.enters c) (granted : v.Within g) :
    Agree g start (s.define c name v) (s'.define c name v) where
  size := by rw [size_define, size_define, h.size]
  parent d := by rw [parent?_define, parent?_define, h.parent]
  outwards {d p} entered parent := by
    rw [parent?_define] at parent
    exact h.outwards entered parent
  bound {d key} entered named := by
    have same := h.bound entered named
    by_cases here : d = c
    · subst here
      rcases Nat.lt_or_ge d s.scopes.size with lt | ge
      · rw [bindings_define_self lt, bindings_define_self (h.size ▸ lt), Bindings.get?_set,
          Bindings.get?_set, same]
      · rw [bindings_define_of_size_le ge, bindings_define_of_size_le (h.size ▸ ge), same]
    · rw [bindings_define_of_ne here, bindings_define_of_ne here, same]
  within {d key u} entered named found := by
    have old : (s.bindings d).get? key = some u → u.Within g := h.within entered named
    by_cases here : d = c
    · subst here
      rcases Nat.lt_or_ge d s.scopes.size with lt | ge
      · rw [bindings_define_self lt, Bindings.get?_set] at found
        split at found
        · cases found
          exact granted
        · exact old found
      · rw [bindings_define_of_size_le ge] at found
        exact old found
    · rw [bindings_define_of_ne here] at found
      exact old found
  new {d} le := by
    rw [size_define] at le
    exact h.new le
  kept {d} outside := by
    have other : d ≠ c := fun same => outside (same ▸ inside)
    rw [bindings_define_of_ne other, h.kept outside]

/-- Stores still agree if the same granted values are bound in the same open scope of both. -/
lemma defineAll {bs : List (String × Value)} (inside : g.enters c)
    (granted : ∀ b ∈ bs, b.2.Within g) :
    Agree g start (s.defineAll c bs) (s'.defineAll c bs) := by
  induction bs generalizing s s' with
  | nil => exact h
  | cons b rest ih =>
    obtain ⟨first, others⟩ := List.forall_mem_cons.mp granted
    exact ih (h.define b.1 inside first) others

/-- An assignment finds its variable in both stores or in neither, and changes the same scope. -/
lemma assign (inside : g.enters c) (named : g.names name) (granted : v.Within g) :
    (s'.assign c name v).2 = (s.assign c name v).2 ∧
      Agree g start (s.assign c name v).1 (s'.assign c name v).1 := by
  induction size : c using Nat.strongRecOn generalizing c with
  | ind n ih =>
    subst size
    have same := h.bound inside named
    by_cases free : (s.bindings c).get? name = none
    · rw [free] at same
      cases parent : s.parent? c with
      | none =>
        rw [assign_of_root free parent, assign_of_root same ((h.parent c).trans parent)]
        exact ⟨rfl, h⟩
      | some p =>
        rw [assign_of_parent free parent, assign_of_parent same ((h.parent c).trans parent)]
        exact ih p (parent?_lt parent) (h.outwards inside parent) rfl
    · rw [assign_of_bound free, assign_of_bound (same ▸ free)]
      exact ⟨rfl, h.define name inside granted⟩

/-- Scopes may be opened inside those of the grant. -/
lemma child (inside : g.enters c) : Agree g start (s.child c).2 (s'.child c).2 where
  size := by rw [size_child, size_child, h.size]
  parent d := by rw [parent?_child, parent?_child, h.size, h.parent]
  outwards {d p} entered parent := by
    rw [parent?_child] at parent
    split at parent
    · split at parent
      · cases parent
        exact inside
      · cases parent
    · exact h.outwards entered parent
  bound entered named := by
    rw [bindings_child, bindings_child]
    exact h.bound entered named
  within entered named found := by
    rw [bindings_child] at found
    exact h.within entered named found
  new {d} le := by
    rw [size_child] at le
    exact h.new (Nat.le_of_succ_le le)
  kept outside := by
    rw [bindings_child]
    exact h.kept outside

end Store.Agree

end Lox
