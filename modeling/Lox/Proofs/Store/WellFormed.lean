import Lox.Proofs.Store.Frame
import Mathlib.Data.List.Pairwise

/-!
# Well-formed stores

The parent with which a scope was opened is in the store for good. In a well-formed store the
globals have none and every other scope has an older one. From every scope there is then one path
outwards, which ends at the globals and passes no scope twice, and lookups and assignments follow it.
Walks through a store ignore parents that are not older, so all this is to be proved of stores and
does not hold by the way in which they are searched. `Store.BindsOnly` says that all bound values
have a property.
-/

namespace Lox

/-- A value that is found is bound. -/
lemma Bindings.mem_of_get? {bs : Bindings} {name : String} {v : Value}
    (h : bs.get? name = some v) : (name, v) ∈ bs := by
  induction bs with
  | nil => exact nomatch h
  | cons b rest ih =>
    obtain ⟨key, old⟩ := b
    rw [Bindings.get?] at h
    split at h
    · next same =>
      cases same
      cases h
      exact List.mem_cons_self
    · exact List.mem_cons_of_mem _ (ih h)

/-- What is bound after a declaration is what was declared or was bound before. -/
lemma Bindings.mem_set {bs : Bindings} {name : String} {v : Value} {b : String × Value}
    (h : b ∈ bs.set name v) : b = (name, v) ∨ b ∈ bs := by
  induction bs with
  | nil => exact .inl (List.mem_singleton.mp h)
  | cons first rest ih =>
    obtain ⟨key, old⟩ := first
    rw [Bindings.set] at h
    split at h
    · rcases List.mem_cons.mp h with same | mem
      · exact .inl same
      · exact .inr (List.mem_cons_of_mem _ mem)
    · rcases List.mem_cons.mp h with same | mem
      · exact .inr (same ▸ List.mem_cons_self)
      · rcases ih mem with same | mem
        · exact .inl same
        · exact .inr (List.mem_cons_of_mem _ mem)

namespace Store

variable {s s' s'' : Store} {c d p : ScopeId} {name : String} {v : Value}

/-- The parent with which a scope was opened, whether it is older or not. -/
def enclosing? (s : Store) (c : ScopeId) : Option ScopeId :=
  s.scopes[c]?.bind Scope.parent

/-- A scope that does not exist is inside of none. -/
lemma enclosing?_of_size_le (h : s.scopes.size ≤ c) : s.enclosing? c = none := by
  rw [enclosing?, Array.getElem?_eq_none h]
  rfl

/-- A declaration leaves scopes inside of one another. -/
@[simp]
lemma enclosing?_define : (s.define c name v).enclosing? d = s.enclosing? d := by
  simp only [enclosing?, define, Array.getElem?_modify]
  split
  · cases s.scopes[d]? <;> rfl
  · rfl

/-- A new scope leaves the old ones inside of one another. -/
lemma enclosing?_child_of_lt (h : d < s.scopes.size) :
    (s.child p).2.enclosing? d = s.enclosing? d := by
  simp only [enclosing?, child, Array.getElem?_push_lt h, Array.getElem?_eq_getElem h]

/-- There is a new scope when one has been opened. -/
lemma size_lt_child : s.scopes.size < (s.child p).2.scopes.size := by
  rw [size_child]
  exact Nat.lt_succ_self _

/-- A new scope is inside the one in which it was opened. -/
@[simp]
lemma enclosing?_child_self : (s.child p).2.enclosing? s.scopes.size = some p := by
  simp only [enclosing?, child, Array.getElem?_push_size]
  rfl

/-- The scopes of the first store are in the second one, with the parents that they have. -/
structure Grows (s s' : Store) : Prop where
  size : s.scopes.size ≤ s'.scopes.size
  enclosing {c : ScopeId} : c < s.scopes.size → s'.enclosing? c = s.enclosing? c

namespace Grows

/-- A store grows by nothing. -/
lemma refl (s : Store) : s.Grows s :=
  ⟨Nat.le_refl _, fun _ => rfl⟩

/-- What grows in two steps grows. -/
lemma trans (first : s.Grows s') (second : s'.Grows s'') : s.Grows s'' where
  size := Nat.le_trans first.size second.size
  enclosing lt :=
    (second.enclosing (Nat.lt_of_lt_of_le lt first.size)).trans (first.enclosing lt)

/-- A declaration takes no scope away. -/
lemma define (s : Store) (c : ScopeId) (name : String) (v : Value) :
    s.Grows (s.define c name v) :=
  ⟨Nat.le_of_eq size_define.symm, fun _ => enclosing?_define⟩

/-- Several declarations take no scope away. -/
lemma defineAll (s : Store) (c : ScopeId) (bs : List (String × Value)) :
    s.Grows (s.defineAll c bs) := by
  induction bs generalizing s with
  | nil => exact refl s
  | cons b rest ih => exact (define s c b.1 b.2).trans (ih _)

/-- A new scope takes none away. -/
lemma child (s : Store) (p : ScopeId) : s.Grows (s.child p).2 where
  size := Nat.le_of_lt size_lt_child
  enclosing := enclosing?_child_of_lt

end Grows

end Store

namespace Store

/-- The globals have no parent, and every other scope has an older one. -/
structure WellFormed (s : Store) : Prop where
  globals : Store.globals < s.scopes.size ∧ s.enclosing? Store.globals = none
  enclosed {c : ScopeId} : Store.globals < c → c < s.scopes.size →
    ∃ p, s.enclosing? c = some p ∧ p < c

/-- All bound values have the property. -/
def BindsOnly (P : Value → Prop) (s : Store) : Prop :=
  ∀ c, ∀ b ∈ s.bindings c, P b.2

/-- The scopes on the way outwards from a scope, up to one without a parent. -/
inductive Path (s : Store) : ScopeId → List ScopeId → Prop where
  | root {c : ScopeId} :
    s.enclosing? c = none →
    Path s c [c]
  | outwards {c p : ScopeId} {ps : List ScopeId} :
    s.enclosing? c = some p → Path s p ps →
    Path s c (c :: ps)

namespace WellFormed

variable {s : Store} {c p : ScopeId} {name : String} {v : Value} {ps : List ScopeId}

/-- The store with the globals only is well formed. -/
lemma initial : WellFormed .initial where
  globals := ⟨by decide, rfl⟩
  enclosed inner lt :=
    absurd (Nat.lt_of_lt_of_le inner (Nat.le_of_lt_succ lt)) (Nat.lt_irrefl _)

variable (h : s.WellFormed)

include h

/-- Every parent is older and in the store. -/
lemma enclosing_lt (found : s.enclosing? c = some p) : p < c ∧ c < s.scopes.size := by
  rcases Nat.lt_or_ge c s.scopes.size with lt | ge
  · rcases Nat.eq_zero_or_pos c with zero | inner
    · have none : s.enclosing? c = none := zero ▸ h.globals.2
      rw [none] at found
      exact nomatch found
    · obtain ⟨q, same, older⟩ := h.enclosed inner lt
      rw [found] at same
      cases same
      exact ⟨older, lt⟩
  · rw [enclosing?_of_size_le ge] at found
    exact nomatch found

/-- Walks outwards ignore no parent. -/
lemma parent?_eq (c : ScopeId) : s.parent? c = s.enclosing? c := by
  cases here : s.scopes[c]? with
  | none => simp [parent?, enclosing?, here]
  | some scope =>
    cases scope with
    | mk bindings parent =>
      cases parent with
      | none => simp [parent?, enclosing?, here]
      | some p =>
        have found : s.enclosing? c = some p := by simp [enclosing?, here]
        have older := (h.enclosing_lt found).1
        simp [parent?, enclosing?, here, older]

/-- From every scope there is a path to the globals, on which each scope is older than the one
before. -/
lemma path (lt : c < s.scopes.size) :
    ∃ ps, s.Path c ps ∧ ps.Pairwise (· > ·) ∧ (∀ d ∈ ps, d ≤ c) ∧
      ps.getLast? = some Store.globals := by
  induction c using Nat.strongRecOn with
  | ind c ih =>
    rcases Nat.eq_zero_or_pos c with zero | inner
    · subst zero
      exact ⟨[0], .root h.globals.2, List.pairwise_singleton _ _, by simp, rfl⟩
    · obtain ⟨p, found, older⟩ := h.enclosed inner lt
      obtain ⟨ps, path, sorted, below, last⟩ := ih p older (Nat.lt_trans older lt)
      refine ⟨c :: ps, .outwards found path, ?_, ?_, ?_⟩
      · rw [List.pairwise_cons]
        exact ⟨fun d mem => Nat.lt_of_le_of_lt (below d mem) older, sorted⟩
      · rw [List.forall_mem_cons]
        exact ⟨Nat.le_refl _, fun d mem => Nat.le_of_lt (Nat.lt_of_le_of_lt (below d mem) older)⟩
      · rw [List.getLast?_cons, last]
        rfl

/-- A name means its first binding on the path. -/
lemma get?_path (path : s.Path c ps) (name : String) :
    s.get? c name = ps.findSome? fun d => (s.bindings d).get? name := by
  induction path with
  | root none =>
    rw [get?_eq, h.parent?_eq, none, List.findSome?_cons]
    cases (s.bindings _).get? name <;> rfl
  | outwards found _ ih =>
    rw [get?_eq, h.parent?_eq, found, List.findSome?_cons, Option.bind_some, ih]
    cases (s.bindings _).get? name <;> rfl

/-- An assignment changes the first scope on the path that binds the name. -/
lemma assign_path (path : s.Path c ps) (name : String) (v : Value) :
    s.assign c name v =
      match ps.find? fun d => ((s.bindings d).get? name).isSome with
      | some d => (s.define d name v, true)
      | none => (s, false) := by
  induction path with
  | @root c none =>
    cases bound : (s.bindings c).get? name with
    | none => rw [assign_of_root bound ((h.parent?_eq c).trans none)]; simp [bound]
    | some old => rw [assign_of_bound (by simp [bound])]; simp [bound]
  | @outwards c p ps found _ ih =>
    cases bound : (s.bindings c).get? name with
    | none =>
      rw [assign_of_parent bound ((h.parent?_eq c).trans found), ih]
      simp [bound]
    | some old => rw [assign_of_bound (by simp [bound])]; simp [bound]

/-- A store stays well formed with a declaration. -/
lemma define (c : ScopeId) (name : String) (v : Value) : (s.define c name v).WellFormed where
  globals := by
    rw [size_define, enclosing?_define]
    exact h.globals
  enclosed inner lt := by
    rw [enclosing?_define]
    exact h.enclosed inner (size_define ▸ lt)

omit h in
/-- A store stays well formed with several declarations. -/
lemma defineAll {bs : List (String × Value)} (h : s.WellFormed) (c : ScopeId) :
    (s.defineAll c bs).WellFormed := by
  induction bs generalizing s with
  | nil => exact h
  | cons b rest ih => exact ih (h.define c b.1 b.2)

/-- A scope may be opened inside any scope of the store. -/
lemma child (lt : p < s.scopes.size) : (s.child p).2.WellFormed where
  globals := by
    refine ⟨Nat.lt_of_lt_of_le h.globals.1 (Grows.child s p).size, ?_⟩
    rw [enclosing?_child_of_lt h.globals.1]
    exact h.globals.2
  enclosed {c} inner le := by
    rw [size_child] at le
    rcases Nat.lt_or_eq_of_le (Nat.le_of_lt_succ le) with old | rfl
    · rw [enclosing?_child_of_lt old]
      exact h.enclosed inner old
    · exact ⟨p, enclosing?_child_self, lt⟩

end WellFormed

namespace BindsOnly

variable {P Q : Value → Prop} {s : Store} {c : ScopeId} {name : String} {v : Value}

/-- A store that binds certain values only binds only values that are more general. -/
lemma mono (h : s.BindsOnly P) (le : ∀ v, P v → Q v) : s.BindsOnly Q :=
  fun c b mem => le b.2 (h c b mem)

variable (h : s.BindsOnly P)

include h

/-- What a name means is a value that the store may bind. -/
lemma get? (found : s.get? c name = some v) : P v := by
  induction c using Nat.strongRecOn with
  | ind c ih =>
    rw [get?_eq] at found
    cases bound : (s.bindings c).get? name with
    | some u =>
      rw [bound] at found
      cases found
      exact h c _ (Bindings.mem_of_get? bound)
    | none =>
      rw [bound, Option.none_or, Option.bind_eq_some_iff] at found
      obtain ⟨p, parent, found⟩ := found
      exact ih p (parent?_lt parent) found

/-- A store still binds certain values only when one of them has been declared. -/
lemma define (p : P v) (c : ScopeId) (name : String) : (s.define c name v).BindsOnly P := by
  intro d b mem
  by_cases here : d = c
  · subst here
    rcases Nat.lt_or_ge d s.scopes.size with lt | ge
    · rw [bindings_define_self lt] at mem
      rcases Bindings.mem_set mem with rfl | mem
      · exact p
      · exact h d b mem
    · rw [bindings_define_of_size_le ge] at mem
      exact h d b mem
  · rw [bindings_define_of_ne here] at mem
    exact h d b mem

omit h in
/-- A store still binds certain values only when several of them have been declared. -/
lemma defineAll {bs : List (String × Value)} (h : s.BindsOnly P) (all : ∀ b ∈ bs, P b.2)
    (c : ScopeId) : (s.defineAll c bs).BindsOnly P := by
  induction bs generalizing s with
  | nil => exact h
  | cons b rest ih =>
    obtain ⟨first, others⟩ := List.forall_mem_cons.mp all
    exact ih (h.define first c b.1) others

/-- A store still binds certain values only when a scope has been opened. -/
lemma child (p : ScopeId) : (s.child p).2.BindsOnly P := by
  intro c b mem
  rw [bindings_child] at mem
  exact h c b mem

end BindsOnly

/-- What an assignment leads to is the store as it was, or one in which a scope has the name bound
to the value. -/
lemma assign_cases (s : Store) (c : ScopeId) (name : String) (v : Value) :
    (s.assign c name v).1 = s ∨ ∃ d, (s.assign c name v).1 = s.define d name v := by
  induction c using Nat.strongRecOn with
  | ind c ih =>
    by_cases free : (s.bindings c).get? name = none
    · cases parent : s.parent? c with
      | none =>
        rw [assign_of_root free parent]
        exact .inl rfl
      | some p =>
        rw [assign_of_parent free parent]
        exact ih p (parent?_lt parent)
    · rw [assign_of_bound free]
      exact .inr ⟨c, rfl⟩

end Store

end Lox
