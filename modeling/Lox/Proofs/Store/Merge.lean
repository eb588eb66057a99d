import Lox.Proofs.Store.Frame
import Mathlib.Data.Option.Basic

/-!
# The globals and a block in one

A store may keep in two scopes, the globals and the first scope opened in them, what another store
keeps in one. As long as nothing else lies in the globals themselves, a name means the same whether
the two scopes are apart or merged: the walk outwards passes both of them one after the other. All
that happens to stores in the other scopes, or in the merged one, keeps this.
-/

namespace Lox

/-- The scope that is opened first. -/
def Store.first : ScopeId := 1

namespace Store

/-- In `t`, the first scope stands for the globals of `s` and the first scope in them; the further
scopes are those of `s`. None of these lies in the globals of `s`. -/
structure Merges (t s : Store) : Prop where
  size : t.scopes.size = s.scopes.size
  opened : first < s.scopes.size
  names (name : String) : (t.bindings first).get? name =
    ((s.bindings first).get? name).or ((s.bindings globals).get? name)
  root : t.parent? first = none
  inside : s.parent? first = some globals
  bindings {c : ScopeId} : first < c → t.bindings c = s.bindings c
  parent {c : ScopeId} : first < c → t.parent? c = s.parent? c
  apart {c : ScopeId} : first < c → s.parent? c ≠ some globals

/-- There is nothing around the globals. -/
lemma parent?_globals (s : Store) : s.parent? globals = none := by
  cases found : s.parent? globals with
  | none => rfl
  | some p => exact (Nat.not_lt_zero p (parent?_lt found)).elim

/-- The globals are older than the first scope. -/
lemma globals_lt_first : globals < first :=
  Nat.zero_lt_one

/-- Any scope but the globals is the first one or further in. -/
lemma first_or_further {c : ScopeId} (ne : c ≠ globals) : c = first ∨ first < c :=
  Nat.eq_or_lt_of_le (Nat.pos_of_ne_zero ne) |>.imp_left Eq.symm

/-- Scopes with the same bindings still have the same bindings when a name is defined in both
stores at once. -/
lemma bindings_define_congr {s t : Store} {c d : ScopeId} (size : t.scopes.size = s.scopes.size)
    (same : t.bindings d = s.bindings d) (name : String) (value : Value) :
    (t.define c name value).bindings d = (s.define c name value).bindings d := by
  by_cases here : d = c
  · subst here
    rcases Nat.lt_or_ge d s.scopes.size with inside | outside
    · rw [bindings_define_self inside, bindings_define_self (size.symm ▸ inside), same]
    · rw [bindings_define_of_size_le outside, bindings_define_of_size_le (size.symm ▸ outside), same]
  · rw [bindings_define_of_ne here, bindings_define_of_ne here, same]

namespace Merges

variable {s t : Store} {c : ScopeId} {name : String} {value : Value}

section

variable (h : t.Merges s)

include h

/-- Names mean the same in every scope but the globals. -/
lemma lookup (ne : c ≠ globals) (name : String) : t.get? c name = s.get? c name := by
  -- The walk outwards ends in the first scope, behind which the globals are merged in.
  induction c using Nat.strongRecOn with
  | ind c ih =>
    rcases first_or_further ne with rfl | further
    · rw [get?_eq, get?_eq s, h.root, h.inside, h.names, Option.bind_none, Option.bind_some,
        get?_eq s globals, parent?_globals, Option.bind_none, Option.or_none, Option.or_none]
    · rw [get?_eq, get?_eq s, h.bindings further, h.parent further]
      cases around : s.parent? c with
      | none => rfl
      | some p =>
        have outwards : p ≠ globals := fun eq => h.apart further (eq ▸ around)
        rw [Option.bind_some, Option.bind_some, ih p (parent?_lt around) outwards]

/-- The stores stay merged when a name is defined in a scope of both. -/
lemma define (ne : c ≠ globals) (name : String) (value : Value) :
    (t.define c name value).Merges (s.define c name value) where
  size := by rw [size_define, size_define, h.size]
  opened := by
    rw [size_define]
    exact h.opened
  names key := by
    rw [bindings_define_of_ne (d := globals) ne.symm]
    rcases first_or_further ne with rfl | further
    · rw [bindings_define_self h.opened, bindings_define_self (h.size.symm ▸ h.opened),
        Bindings.get?_set, Bindings.get?_set, h.names]
      split
      · rfl
      · rfl
    · rw [bindings_define_of_ne (Nat.ne_of_lt further), bindings_define_of_ne (Nat.ne_of_lt further),
        h.names]
  root := parent?_define.trans h.root
  inside := parent?_define.trans h.inside
  bindings further := bindings_define_congr h.size (h.bindings further) name value
  parent further := by rw [parent?_define, parent?_define, h.parent further]
  apart further := by
    rw [parent?_define]
    exact h.apart further

/-- The stores stay merged when a name that is not bound in the first scope is defined in the
globals of the one and in the first scope of the other. -/
lemma define_globals (free : (s.bindings first).get? name = none) (value : Value) :
    (t.define first name value).Merges (s.define globals name value) where
  size := by rw [size_define, size_define, h.size]
  opened := by
    rw [size_define]
    exact h.opened
  names key := by
    rw [bindings_define_self (h.size.symm ▸ h.opened),
      bindings_define_of_ne (c := globals) (Nat.ne_of_gt globals_lt_first),
      bindings_define_self (Nat.lt_trans globals_lt_first h.opened), Bindings.get?_set,
      Bindings.get?_set, h.names]
    by_cases same : name = key
    · subst same
      rw [if_pos rfl, if_pos rfl, free, Option.none_or]
    · rw [if_neg same, if_neg same]
  root := parent?_define.trans h.root
  inside := parent?_define.trans h.inside
  bindings further := by
    have beyond := Nat.lt_trans globals_lt_first further
    rw [bindings_define_of_ne (Nat.ne_of_gt further), bindings_define_of_ne (Nat.ne_of_gt beyond),
      h.bindings further]
  parent further := by rw [parent?_define, parent?_define, h.parent further]
  apart further := by
    rw [parent?_define]
    exact h.apart further

/-- The stores stay merged when a variable is changed, and they find it or not alike. -/
lemma assign (ne : c ≠ globals) (name : String) (value : Value) :
    (t.assign c name value).1.Merges (s.assign c name value).1 ∧
      (t.assign c name value).2 = (s.assign c name value).2 := by
  induction c using Nat.strongRecOn with
  | ind c ih =>
    rcases first_or_further ne with rfl | further
    · have meaning := h.names name
      cases own : (s.bindings first).get? name with
      | some old =>
        rw [own, Option.some_or] at meaning
        rw [assign_of_bound (by rw [meaning]; exact nofun),
          assign_of_bound (by rw [own]; exact nofun)]
        exact ⟨h.define ne name value, rfl⟩
      | none =>
        -- The walk goes on to the globals, which the merged store has here.
        rw [own, Option.none_or] at meaning
        rw [assign_of_parent own h.inside]
        cases outer : (s.bindings globals).get? name with
        | some old =>
          rw [outer] at meaning
          rw [assign_of_bound (by rw [meaning]; exact nofun),
            assign_of_bound (by rw [outer]; exact nofun)]
          exact ⟨h.define_globals own value, rfl⟩
        | none =>
          rw [outer] at meaning
          rw [assign_of_root meaning h.root, assign_of_root outer s.parent?_globals]
          exact ⟨h, rfl⟩
    · cases own : (s.bindings c).get? name with
      | some old =>
        have own' : (t.bindings c).get? name = some old := (h.bindings further).symm ▸ own
        rw [assign_of_bound (by rw [own']; exact nofun), assign_of_bound (by rw [own]; exact nofun)]
        exact ⟨h.define ne name value, rfl⟩
      | none =>
        have own' : (t.bindings c).get? name = none := (h.bindings further).symm ▸ own
        cases around : s.parent? c with
        | none =>
          rw [assign_of_root own' ((h.parent further).trans around), assign_of_root own around]
          exact ⟨h, rfl⟩
        | some p =>
          have outwards : p ≠ globals := fun eq => h.apart further (eq ▸ around)
          rw [assign_of_parent own' ((h.parent further).trans around), assign_of_parent own around]
          exact ih p (parent?_lt around) outwards

/-- The stores stay merged when a scope is opened in both, anywhere but in the globals. -/
lemma child (ne : c ≠ globals) : (t.child c).2.Merges (s.child c).2 where
  size := by rw [size_child, size_child, h.size]
  opened := by
    rw [size_child]
    exact Nat.lt_succ_of_lt h.opened
  names key := by rw [bindings_child, bindings_child, bindings_child, h.names]
  root := (parent?_child_of_lt (h.size.symm ▸ h.opened)).trans h.root
  inside := (parent?_child_of_lt h.opened).trans h.inside
  bindings further := by rw [bindings_child, bindings_child, h.bindings further]
  parent further := by rw [parent?_child, parent?_child, h.size, h.parent further]
  apart further := by
    rw [parent?_child]
    split
    · split
      · exact mt Option.some.inj ne
      · exact nofun
    · exact h.apart further

end

/-- A new store and a new store with a scope opened in it. -/
lemma initial : Merges ⟨#[⟨[], none⟩, ⟨[(Builtin.clock.name, .native .clock 0)], none⟩]⟩
    (Store.initial.child globals).2 where
  size := rfl
  opened := Nat.lt_succ_self 1
  names name := by rfl
  root := rfl
  inside := rfl
  bindings {c} further := by
    rw [bindings_of_size_le (s := (Store.initial.child globals).2) further,
      bindings_of_size_le further]
  parent {c} further := by
    rw [parent?_of_size_le (s := (Store.initial.child globals).2) further,
      parent?_of_size_le further]
  apart {c} further := by
    rw [parent?_of_size_le (s := (Store.initial.child globals).2) further]
    exact nofun

end Merges

end Store

end Lox
