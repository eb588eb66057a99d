import Lox.Store
import Mathlib.Tactic.Common

/-!
# Frames of the store

What each operation changes in the store, scope by scope, and that it changes nothing else: defining
a name changes the bindings of one scope, opening a scope adds one, and no operation changes a
parent. `get?_eq` and `assign_eq` say what the walks outwards do at one scope.
-/

namespace Lox

/-- A name that is bound means the value, and all other names mean what they meant. -/
lemma Bindings.get?_set (bs : Bindings) (name key : String) (value : Value) :
    (bs.set name value).get? key = if name = key then some value else bs.get? key := by
  induction bs with
  | nil => rfl
  | cons b rest ih =>
    obtain ⟨first, old⟩ := b
    rw [Bindings.set, Bindings.get?]
    by_cases same : first = name
    · subst same
      rw [if_pos rfl, Bindings.get?]
      split
      · rfl
      · rfl
    · rw [if_neg same, Bindings.get?, ih]
      by_cases other : first = key
      · subst other
        rw [if_pos rfl, if_pos rfl, if_neg (Ne.symm same)]
      · rw [if_neg other, if_neg other]

namespace Store

variable {s : Store} {c d p : ScopeId} {name : String} {value : Value}

/-- A scope that is not in the store binds nothing. -/
lemma bindings_of_size_le (h : s.scopes.size ≤ c) : s.bindings c = [] := by
  rw [bindings, Array.getElem?_eq_none h]

/-- At first, the globals bind the clock, and nothing else is bound. -/
lemma get?_bindings_initial (c : ScopeId) (name : String) :
    (initial.bindings c).get? name =
      if c = globals ∧ name = Builtin.clock.name then some (.native .clock 0) else none := by
  rcases Nat.eq_zero_or_pos c with rfl | pos
  · change (if Builtin.clock.name = name then some (Value.native .clock 0) else none) = _
    exact if_congr ⟨fun same => ⟨rfl, same.symm⟩, fun h => h.2.symm⟩ rfl rfl
  · rw [bindings_of_size_le (by exact pos), if_neg fun h => Nat.ne_of_gt pos h.1]
    rfl

/-- A name means its binding in a scope, or else what it means in the parent. -/
lemma get?_eq (s : Store) (c : ScopeId) (name : String) :
    s.get? c name = ((s.bindings c).get? name).or ((s.parent? c).bind (s.get? · name)) := by
  rw [get?]
  cases (s.bindings c).get? name with
  | some value => rfl
  | none =>
    split
    · next value found => cases found
    · split
      · next parent found => simp only [found, Option.bind_some, Option.none_or]
      · next found => simp only [found, Option.bind_none, Option.none_or]

/-- A scope that is not in the store has no parent. -/
lemma parent?_of_size_le (h : s.scopes.size ≤ c) : s.parent? c = none := by
  rw [parent?, Array.getElem?_eq_none h]

/-- An assignment to a name that is bound in a scope changes the binding there. -/
lemma assign_of_bound (bound : (s.bindings c).get? name ≠ none) :
    s.assign c name value = (s.define c name value, true) := by
  rw [assign]
  split
  · rfl
  · next found => exact (bound found).elim

/-- An assignment to a name that is not bound in a scope is one in the parent. -/
lemma assign_of_parent (free : (s.bindings c).get? name = none) (h : s.parent? c = some p) :
    s.assign c name value = s.assign p name value := by
  rw [assign]
  split
  · next found => rw [free] at found; cases found
  · split
    · next parent found =>
      rw [h] at found
      cases found
      rfl
    · next found => rw [h] at found; cases found

/-- An assignment to a name that is bound nowhere on the way outwards changes nothing. -/
lemma assign_of_root (free : (s.bindings c).get? name = none) (h : s.parent? c = none) :
    s.assign c name value = (s, false) := by
  rw [assign]
  split
  · next found => rw [free] at found; cases found
  · split
    · next found => rw [h] at found; cases found
    · rfl

/-- A declaration opens no scope. -/
@[simp]
lemma size_define : (s.define c name value).scopes.size = s.scopes.size :=
  Array.size_modify

/-- A declaration leaves the scopes inside of one another. -/
@[simp]
lemma parent?_define : (s.define c name value).parent? d = s.parent? d := by
  simp only [parent?, define, Array.getElem?_modify]
  by_cases eq : c = d
  · rw [if_pos eq]
    cases s.scopes[d]? with
    | none => rfl
    | some found =>
      obtain ⟨bindings, parent⟩ := found
      cases parent with
      | none => rfl
      | some parent => rfl
  · rw [if_neg eq]

/-- Defining a name binds it in its scope. -/
lemma bindings_define_self (h : c < s.scopes.size) :
    (s.define c name value).bindings c = (s.bindings c).set name value := by
  simp only [bindings, define, Array.getElem?_modify, Array.getElem?_eq_getElem h, if_true,
    Option.map_some]

/-- Defining a name in a scope that is not in the store binds nothing. -/
lemma bindings_define_of_size_le (h : s.scopes.size ≤ c) :
    (s.define c name value).bindings c = s.bindings c := by
  rw [bindings_of_size_le h, bindings_of_size_le]
  rw [size_define]
  exact h

/-- Defining a name changes the bindings of no other scope. -/
lemma bindings_define_of_ne (h : d ≠ c) : (s.define c name value).bindings d = s.bindings d := by
  simp only [bindings, define, Array.getElem?_modify, if_neg h.symm]

/-- A new scope is one more. -/
@[simp]
lemma size_child : (s.child p).2.scopes.size = s.scopes.size + 1 :=
  Array.size_push _

/-- A new scope binds nothing, and no other scope binds more or less than before. -/
@[simp]
lemma bindings_child : (s.child p).2.bindings d = s.bindings d := by
  rcases Nat.lt_trichotomy d s.scopes.size with lt | eq | gt
  · simp only [bindings, child, Array.getElem?_push_lt lt, Array.getElem?_eq_getElem lt]
  · subst eq
    rw [bindings_of_size_le (Nat.le_refl _)]
    simp only [bindings, child, Array.getElem?_push_size]
  · rw [bindings_of_size_le (Nat.le_of_lt gt), bindings_of_size_le]
    rw [size_child]
    exact gt

/-- A new scope leaves the old ones inside of one another. -/
lemma parent?_child_of_lt (h : d < s.scopes.size) : (s.child p).2.parent? d = s.parent? d := by
  simp only [parent?, child, Array.getElem?_push_lt h, Array.getElem?_eq_getElem h]

/-- The parent of a new scope is the scope in which it was opened, if there is such a one. -/
lemma parent?_child_top (s : Store) (p : ScopeId) :
    (s.child p).2.parent? s.scopes.size = if p < s.scopes.size then some p else none := by
  simp only [parent?, child, Array.getElem?_push_size]

/-- Opening a scope changes no other scope's parent. -/
lemma parent?_child (s : Store) (p d : ScopeId) :
    (s.child p).2.parent? d =
      if d = s.scopes.size then if p < s.scopes.size then some p else none else s.parent? d := by
  rcases Nat.lt_trichotomy d s.scopes.size with lt | rfl | gt
  · rw [parent?_child_of_lt lt, if_neg (Nat.ne_of_lt lt)]
  · rw [parent?_child_top, if_pos rfl]
  · have outside : (s.child p).2.scopes.size ≤ d := by
      rw [size_child]
      exact gt
    rw [parent?_of_size_le outside, if_neg (Nat.ne_of_gt gt), parent?_of_size_le (Nat.le_of_lt gt)]

/-- A new scope is inside the one in which it was opened. -/
lemma parent?_child_self (h : p < s.scopes.size) :
    (s.child p).2.parent? s.scopes.size = some p := by
  rw [parent?_child_top, if_pos h]

end Store

end Lox
