import Lox.Proofs.Relabel.Basic
import Lox.Proofs.Store.Frame

/-!
# Relabelled stores

Operations on stores commute with relabelling: since the renaming is injective, a new name means the
relabelled value of what the old name meant.
-/

namespace Lox

variable (r : Relabelling)

/-- A new name is bound to the relabelled value of the old one. -/
lemma Bindings.get?_relabel (bs : Bindings) (name : String) :
    (bs.relabel r).get? (r.rename name) = (bs.get? name).map (Value.relabel r) := by
  induction bs with
  | nil => rfl
  | cons b rest ih =>
    obtain ⟨key, v⟩ := b
    change (if r.rename key = r.rename name then some (v.relabel r)
      else Bindings.get? (Bindings.relabel r rest) (r.rename name)) = _
    rw [Bindings.get?]
    by_cases eq : key = name
    · rw [if_pos eq, if_pos (congrArg r.rename eq), Option.map_some]
    · rw [if_neg eq, if_neg (mt (fun same => r.injective same) eq)]
      exact ih

/-- Binding a name commutes with relabelling. -/
lemma Bindings.set_relabel (bs : Bindings) (name : String) (v : Value) :
    (bs.relabel r).set (r.rename name) (v.relabel r) = Bindings.relabel r (bs.set name v) := by
  induction bs with
  | nil => rfl
  | cons b rest ih =>
    obtain ⟨key, u⟩ := b
    change (if r.rename key = r.rename name then
        (r.rename name, v.relabel r) :: Bindings.relabel r rest
      else (r.rename key, u.relabel r) ::
        Bindings.set (Bindings.relabel r rest) (r.rename name) (v.relabel r)) = _
    rw [Bindings.set]
    by_cases eq : key = name
    · rw [if_pos eq, if_pos (congrArg r.rename eq)]
      rfl
    · rw [if_neg eq, if_neg (mt (fun same => r.injective same) eq), ih]
      rfl

namespace Store

variable (s : Store) (c : ScopeId) (name : String) (v : Value)

/-- The bindings of a scope of the relabelled store are relabelled. -/
lemma bindings_relabel : (s.relabel r).bindings c = Bindings.relabel r (s.bindings c) := by
  rw [bindings, bindings, relabel, Array.getElem?_map]
  cases s.scopes[c]? with
  | none => rfl
  | some found => rfl

/-- The scopes stay inside of one another. -/
lemma parent?_relabel : (s.relabel r).parent? c = s.parent? c := by
  rw [parent?, parent?, relabel, Array.getElem?_map]
  cases s.scopes[c]? with
  | none => rfl
  | some found =>
    obtain ⟨bindings, parent⟩ := found
    cases parent with
    | none => rfl
    | some parent => rfl

/-- A new name means the relabelled value of the old one. -/
lemma get?_relabel :
    (s.relabel r).get? c (r.rename name) = (s.get? c name).map (Value.relabel r) := by
  induction size : c using Nat.strongRecOn generalizing c with
  | ind n ih =>
    subst size
    rw [get?_eq, get?_eq s, bindings_relabel, Bindings.get?_relabel, parent?_relabel]
    cases (s.bindings c).get? name with
    | some value => rfl
    | none =>
      cases parent : s.parent? c with
      | none => rfl
      | some p =>
        rw [Option.map_none, Option.none_or, Option.none_or, Option.bind_some, Option.bind_some]
        exact ih p (parent?_lt parent) p rfl

/-- Defining a name commutes with relabelling. -/
lemma define_relabel :
    (s.relabel r).define c (r.rename name) (v.relabel r) = (s.define c name v).relabel r := by
  rw [define, relabel, define, relabel, mk.injEq]
  apply Array.ext_getElem?
  intro i
  rw [Array.getElem?_modify, Array.getElem?_map, Array.getElem?_map, Array.getElem?_modify]
  split
  · cases s.scopes[i]? with
    | none => rfl
    | some found =>
      rw [Option.map_some, Option.map_some, Option.map_some, Option.map_some]
      exact congrArg some (congrArg (Scope.mk · found.parent) (found.bindings.set_relabel r name v))
  · rfl

/-- Assigning to a name commutes with relabelling. -/
lemma assign_relabel :
    (s.relabel r).assign c (r.rename name) (v.relabel r) =
      ((s.assign c name v).1.relabel r, (s.assign c name v).2) := by
  induction size : c using Nat.strongRecOn generalizing c with
  | ind n ih =>
    subst size
    have found := (s.bindings c).get?_relabel r name
    rw [← bindings_relabel] at found
    cases bound : (s.bindings c).get? name with
    | some value =>
      rw [bound, Option.map_some] at found
      rw [assign_of_bound (by rw [found]; exact nofun), assign_of_bound (by rw [bound]; exact nofun),
        define_relabel]
    | none =>
      rw [bound, Option.map_none] at found
      cases parent : s.parent? c with
      | none => rw [assign_of_root found (by rw [parent?_relabel, parent]), assign_of_root bound parent]
      | some p =>
        rw [assign_of_parent found (by rw [parent?_relabel, parent]), assign_of_parent bound parent]
        exact ih p (parent?_lt parent) p rfl

/-- Opening a scope commutes with relabelling. -/
lemma child_relabel :
    (s.relabel r).child c = ((s.child c).1, (s.child c).2.relabel r) := by
  rw [child, child, relabel, relabel, Array.size_map, Array.map_push]
  rfl

/-- Defining several names commutes with relabelling. -/
lemma defineAll_relabel (bs : List (String × Value)) :
    (s.relabel r).defineAll c (Bindings.relabel r bs) = (s.defineAll c bs).relabel r := by
  induction bs generalizing s with
  | nil => rfl
  | cons b rest ih =>
    obtain ⟨name, v⟩ := b
    change ((s.relabel r).define c (r.rename name) (v.relabel r)).defineAll c
      (Bindings.relabel r rest) = _
    rw [define_relabel, ih]
    rfl

end Store

end Lox
