import Lox.Proofs.Store.WellFormed

/-!
# Names of scopes

Which names a scope binds, and what the operations of the store do to them: a definition adds its
name to one scope, and an assignment, like the opening of a scope, adds no name to any. If no scope
gets new names, the same names mean something in each of them.
-/

namespace Lox

/-- A name is bound exactly if it is the first part of a binding. -/
lemma Bindings.mem_map_fst_iff {bs : Bindings} {name : String} :
    name ∈ bs.map Prod.fst ↔ bs.get? name ≠ none := by
  induction bs with
  | nil => exact iff_of_false List.not_mem_nil (not_not_intro rfl)
  | cons b rest ih =>
    obtain ⟨key, value⟩ := b
    rw [List.map_cons, List.mem_cons, Bindings.get?, ih]
    by_cases same : key = name
    · rw [if_pos same]
      exact iff_of_true (.inl same.symm) (Option.some_ne_none value)
    · rw [if_neg same]
      exact or_iff_right (Ne.symm same)

/-- Names are bound in the order in which they come. -/
lemma Bindings.map_fst_set (bs : Bindings) (name : String) (value : Value) :
    (bs.set name value).map Prod.fst =
      if name ∈ bs.map Prod.fst then bs.map Prod.fst else bs.map Prod.fst ++ [name] := by
  induction bs with
  | nil => rfl
  | cons b rest ih =>
    obtain ⟨key, old⟩ := b
    rw [Bindings.set]
    by_cases same : key = name
    · subst same
      have mem : key ∈ ((key, old) :: rest).map Prod.fst := List.mem_cons_self
      rw [if_pos rfl, if_pos mem]
      rfl
    · have others : name ∈ ((key, old) :: rest).map Prod.fst ↔ name ∈ rest.map Prod.fst := by
        rw [List.map_cons, List.mem_cons]
        exact or_iff_right (Ne.symm same)
      rw [if_neg same, List.map_cons, ih, if_congr others rfl rfl]
      split
      · rfl
      · rfl

namespace Store

/-- The names that a scope binds, in the order in which they came. -/
def names (s : Store) (c : ScopeId) : List String :=
  (s.bindings c).map Prod.fst

variable {s s' : Store} {c d p : ScopeId} {name : String} {v : Value}

/-- The names of a scope are those that it binds. -/
lemma mem_names : name ∈ s.names c ↔ (s.bindings c).get? name ≠ none :=
  Bindings.mem_map_fst_iff

/-- A scope that does not exist has none. -/
lemma names_of_size_le (h : s.scopes.size ≤ c) : s.names c = [] := by
  rw [names, bindings_of_size_le h]
  rfl

/-- A declaration adds no name to another scope. -/
lemma names_define_of_ne (h : d ≠ c) : (s.define c name v).names d = s.names d := by
  rw [names, bindings_define_of_ne h]
  rfl

/-- A definition adds its name unless the scope has it. -/
lemma names_define_self (h : c < s.scopes.size) :
    (s.define c name v).names c =
      if name ∈ s.names c then s.names c else s.names c ++ [name] := by
  rw [names, bindings_define_self h]
  exact Bindings.map_fst_set _ _ _

/-- A definition of a name that the scope has adds no name to any scope. -/
lemma names_define_of_mem (mem : name ∈ s.names c) : (s.define c name v).names d = s.names d := by
  by_cases here : d = c
  · subst here
    rcases Nat.lt_or_ge d s.scopes.size with lt | ge
    · rw [names_define_self lt, if_pos mem]
    · rw [names_of_size_le ge] at mem
      exact absurd mem List.not_mem_nil
  · exact names_define_of_ne here

/-- A definition takes no name away. -/
lemma names_define_prefix : s.names d <+: (s.define c name v).names d := by
  by_cases here : d = c
  · subst here
    rcases Nat.lt_or_ge d s.scopes.size with lt | ge
    · rw [names_define_self lt]
      split
      · exact List.prefix_rfl
      · exact List.prefix_append _ _
    · rw [names_of_size_le ge]
      exact List.nil_prefix
  · have same : (s.define c name v).names d = s.names d := names_define_of_ne here
    exact same.symm ▸ List.prefix_rfl

/-- Several declarations leave the bindings of other scopes alone. -/
lemma bindings_defineAll_of_ne {bs : List (String × Value)} (h : d ≠ c) :
    (s.defineAll c bs).bindings d = s.bindings d := by
  induction bs generalizing s with
  | nil => rfl
  | cons b rest ih =>
    have others : ((s.define c b.1 b.2).defineAll c rest).bindings d = _ := ih
    exact others.trans (bindings_define_of_ne h)

/-- Several declarations add no name to another scope. -/
lemma names_defineAll_of_ne {bs : List (String × Value)} (h : d ≠ c) :
    (s.defineAll c bs).names d = s.names d := by
  rw [names, bindings_defineAll_of_ne h]
  rfl

/-- A new scope binds no names, and takes none away. -/
lemma names_child : (s.child p).2.names d = s.names d := by
  rw [names, bindings_child]
  rfl

/-- An assignment adds no name. -/
lemma names_assign (s : Store) (c d : ScopeId) (name : String) (v : Value) :
    (s.assign c name v).1.names d = s.names d := by
  induction c using Nat.strongRecOn with
  | ind c ih =>
    by_cases free : (s.bindings c).get? name = none
    · cases parent : s.parent? c with
      | none => rw [assign_of_root free parent]
      | some p =>
        rw [assign_of_parent free parent]
        exact ih p (parent?_lt parent)
    · rw [assign_of_bound free]
      exact names_define_of_mem (mem_names.mpr free)

/-- An assignment takes no scope away. -/
lemma Grows.assign (s : Store) (c : ScopeId) (name : String) (v : Value) :
    s.Grows (s.assign c name v).1 := by
  rcases s.assign_cases c name v with same | ⟨d, same⟩
  · rw [same]
    exact .refl s
  · rw [same]
    exact .define s d name v

/-- A parent leads outwards if it is older. -/
lemma parent?_eq_filter (s : Store) (c : ScopeId) :
    s.parent? c = (s.enclosing? c).filter fun p => decide (p < c) := by
  unfold parent? enclosing?
  cases s.scopes[c]? with
  | none => rfl
  | some found =>
    obtain ⟨bindings, parent⟩ := found
    cases parent with
    | none => rfl
    | some p =>
      by_cases older : p < c
      · simp [older, Option.filter]
      · simp [older, Option.filter]

/-- Where no scope has got new names, the same names mean something. -/
lemma Grows.means_iff (grows : s.Grows s')
    (same : ∀ c < s.scopes.size, s'.names c = s.names c) (name : String)
    (lt : c < s.scopes.size) : s'.get? c name ≠ none ↔ s.get? c name ≠ none := by
  induction c using Nat.strongRecOn with
  | ind c ih =>
    have parent : s'.parent? c = s.parent? c := by
      rw [parent?_eq_filter, parent?_eq_filter, grows.enclosing lt]
    have bound : (s'.bindings c).get? name ≠ none ↔ (s.bindings c).get? name ≠ none := by
      rw [← mem_names, ← mem_names, same c lt]
    have outside : (s.parent? c).bind (s'.get? · name) ≠ none ↔
        (s.parent? c).bind (s.get? · name) ≠ none := by
      cases found : s.parent? c with
      | none => exact Iff.rfl
      | some p =>
        have older := parent?_lt found
        exact ih p older (Nat.lt_trans older lt)
    rw [get?_eq, get?_eq, parent, ne_eq, Option.or_eq_none_iff, ne_eq, Option.or_eq_none_iff]
    exact not_congr (and_congr (not_iff_not.mp bound) (not_iff_not.mp outside))

end Store

end Lox
