import Lox.Proofs.Simulation.Logic
import Lox.Proofs.Store.Frame

/-!
# Stores up to empty scopes

Two stores are alike in a world if scopes with the same bindings have parents that stand for each
other, and any other scope that stands for one of the other store is empty, stays so, and lies in a
scope that stands for the same one. Names then mean the same in scopes that stand for each other,
since the walk outwards passes the empty ones. `Pairing.emptyScopes` collects that this is kept by
all that happens to stores.
-/

namespace Lox

/-- The world in which, moreover, two scopes have the same bindings. -/
def World.together (w : World) (d d' : ScopeId) : World where
  near c c' := w.near c c' ∨ c = d ∧ c' = d'
  same c c' := w.same c c' ∨ c = d ∧ c' = d'
  near_of_same h := h.imp_left w.near_of_same

/-- The world in which, moreover, names mean the same in two scopes. -/
def World.beside (w : World) (d d' : ScopeId) : World where
  near c c' := w.near c c' ∨ c = d ∧ c' = d'
  same := w.same
  near_of_same h := .inl (w.near_of_same h)

/-- One pair more, with the same bindings. -/
lemma World.grows_together (w : World) (d d' : ScopeId) : w.Grows (w.together d d') :=
  ⟨.inl, .inl⟩

/-- One pair more, in which names mean the same. -/
lemma World.grows_beside (w : World) (d d' : ScopeId) : w.Grows (w.beside d d') :=
  ⟨.inl, id⟩

/-- In what way a scope stands for another one. -/
inductive Store.Stands (w : World) (s s' : Store) (c c' : ScopeId) : Prop where
  | same :
    w.same c c' → Eval.BindingsAlike w (s.bindings c) (s'.bindings c') →
    (s.parent? c = none ∧ s'.parent? c' = none ∨
      ∃ p p', s.parent? c = some p ∧ s'.parent? c' = some p' ∧ w.near p p') →
    Stands w s s' c c'
  | emptyLeft {p : ScopeId} :
    s.bindings c = [] → s.parent? c = some p → w.near p c' → (∀ d', ¬ w.same c d') →
    Stands w s s' c c'
  | emptyRight {p' : ScopeId} :
    s'.bindings c' = [] → s'.parent? c' = some p' → w.near c p' → (∀ d, ¬ w.same d c') →
    Stands w s s' c c'

/-- Stores that are alike up to empty scopes. -/
structure Store.Alike (w : World) (s s' : Store) : Prop where
  stands {c c' : ScopeId} : w.near c c' → Store.Stands w s s' c c'
  unique {c c' d d' : ScopeId} : w.same c c' → w.same d d' → (c = d ↔ c' = d')
  bound {c c' : ScopeId} : w.near c c' → c < s.scopes.size ∧ c' < s'.scopes.size

section

variable {w : World} {bs bs' : Bindings} (h : Eval.BindingsAlike w bs bs') (name : String)

include h

/-- Bindings that are alike bind a name to values that are. -/
lemma Bindings.get?_alike : Option.Rel (Value.Alike w) (bs.get? name) (bs'.get? name) := by
  induction h with
  | nil => exact .none
  | @cons b b' rest rest' first _ ih =>
    obtain ⟨key, v⟩ := b
    obtain ⟨key', v'⟩ := b'
    obtain ⟨rfl, related⟩ := first
    rw [Bindings.get?, Bindings.get?]
    split
    · exact .some related
    · exact ih

/-- Bindings stay alike when a name is bound to values that are. -/
lemma Bindings.set_alike {v v' : Value} (related : v.Alike w v') :
    Eval.BindingsAlike w (bs.set name v) (bs'.set name v') := by
  induction h with
  | nil => exact .cons ⟨rfl, related⟩ .nil
  | @cons b b' rest rest' first others ih =>
    obtain ⟨key, u⟩ := b
    obtain ⟨key', u'⟩ := b'
    obtain ⟨rfl, old⟩ := first
    rw [Bindings.set, Bindings.set]
    split
    · exact .cons ⟨rfl, related⟩ others
    · exact .cons ⟨rfl, old⟩ ih

end

/-- A scope goes on to stand for another one if their bindings and parents stay and neither is
declared to have the same bindings as a third one. -/
lemma Store.Stands.keep {w w' : World} {s s' t t' : Store} {c c' : ScopeId}
    (h : Store.Stands w s s' c c') (g : w.Grows w')
    (old : ∀ {d d'}, w'.same d d' → w.same d d' ∨ d ≠ c ∧ d' ≠ c')
    (bindings : t.bindings c = s.bindings c) (parent : t.parent? c = s.parent? c)
    (bindings' : t'.bindings c' = s'.bindings c') (parent' : t'.parent? c' = s'.parent? c') :
    Store.Stands w' t t' c c' := by
  cases h with
  | same same alike parents =>
    refine .same (g.same same) ?_ ?_
    · rw [bindings, bindings']
      exact alike.imp fun _ _ h => ⟨h.1, h.2.grow g⟩
    · rw [parent, parent']
      exact parents.imp_right fun ⟨p, p', left, right, near⟩ => ⟨p, p', left, right, g.near near⟩
  | emptyLeft empty around near none =>
    refine .emptyLeft (bindings.trans empty) (parent.trans around) (g.near near) fun d' same => ?_
    rcases old same with same | ⟨ne, _⟩
    · exact none d' same
    · exact ne rfl
  | emptyRight empty around near none =>
    refine .emptyRight (bindings'.trans empty) (parent'.trans around) (g.near near) fun d same => ?_
    rcases old same with same | ⟨_, ne⟩
    · exact none d same
    · exact ne rfl

namespace Store.Alike

variable {w : World} {s s' : Store} {c c' : ScopeId} {v v' : Value}

/-- Names mean the same in scopes that stand for each other. -/
lemma lookup (h : Store.Alike w s s') (near : w.near c c') (name : String) :
    Option.Rel (Value.Alike w) (s.get? c name) (s'.get? c' name) := by
  -- Each step outwards, on either side, makes the sum of the two scopes smaller.
  induction size : c + c' using Nat.strongRecOn generalizing c c' with
  | ind n ih =>
    cases h.stands near with
    | same _ bindings parents =>
      rw [get?_eq, get?_eq]
      have found := Bindings.get?_alike bindings name
      generalize (s.bindings c).get? name = left at found ⊢
      generalize (s'.bindings c').get? name = right at found ⊢
      cases found with
      | some related => exact .some related
      | none =>
        rw [Option.none_or, Option.none_or]
        rcases parents with ⟨left, right⟩ | ⟨p, p', left, right, around⟩
        · rw [left, right]
          exact .none
        · rw [left, right]
          have shorter := Nat.add_lt_add (parent?_lt left) (parent?_lt right)
          exact ih (p + p') (size ▸ shorter) around rfl
    | emptyLeft empty parent around =>
      rw [get?_eq, empty, parent]
      have shorter := Nat.add_lt_add_right (parent?_lt parent) c'
      exact ih _ (size ▸ shorter) around rfl
    | emptyRight empty parent around =>
      rw [get?_eq s', empty, parent]
      have shorter := Nat.add_lt_add_left (parent?_lt parent) c
      exact ih _ (size ▸ shorter) around rfl

/-- Stores stay alike when a name is declared in scopes with the same bindings. -/
lemma define (h : Store.Alike w s s') (same : w.same c c') (name : String)
    (related : v.Alike w v') : Store.Alike w (s.define c name v) (s'.define c' name v') := by
  refine ⟨fun {d d'} near => ?_, h.unique, fun near => ?_⟩
  · cases h.stands near with
    | same other bindings parents =>
      refine .same other ?_ ?_
      -- Bindings change in the scopes of the declaration only, which stand for each other.
      · by_cases eq : d = c
        · subst eq
          obtain rfl := (h.unique other same).mp rfl
          obtain ⟨lt, lt'⟩ := h.bound near
          rw [bindings_define_self lt, bindings_define_self lt']
          exact Bindings.set_alike bindings name related
        · rw [bindings_define_of_ne eq, bindings_define_of_ne (mt (h.unique other same).mpr eq)]
          exact bindings
      · rw [parent?_define, parent?_define]
        exact parents
    | emptyLeft empty parent around none =>
      -- An empty scope shares its bindings with none, so nothing is declared in it.
      have ne : d ≠ c := fun eq => none c' (eq ▸ same)
      refine .emptyLeft ?_ ?_ around none
      · rw [bindings_define_of_ne ne]
        exact empty
      · rw [parent?_define]
        exact parent
    | emptyRight empty parent around none =>
      have ne : d' ≠ c' := fun eq => none c (eq ▸ same)
      refine .emptyRight ?_ ?_ around none
      · rw [bindings_define_of_ne ne]
        exact empty
      · rw [parent?_define]
        exact parent
  · rw [size_define, size_define]
    exact h.bound near

/-- Stores stay alike when a variable is assigned in scopes that stand for each other. -/
lemma assign (h : Store.Alike w s s') (near : w.near c c') (name : String)
    (related : v.Alike w v') :
    Store.Alike w (s.assign c name v).1 (s'.assign c' name v').1 ∧
      (s.assign c name v).2 = (s'.assign c' name v').2 := by
  -- As for `lookup`: the sum of the two scopes gets smaller outwards.
  induction size : c + c' using Nat.strongRecOn generalizing c c' with
  | ind n ih =>
    cases h.stands near with
    | same same bindings parents =>
      have found := Bindings.get?_alike bindings name
      cases left : (s.bindings c).get? name with
      | some u =>
        cases right : (s'.bindings c').get? name with
        | none => rw [left, right] at found; cases found
        | some u' =>
          rw [assign_of_bound (by rw [left]; exact nofun),
            assign_of_bound (by rw [right]; exact nofun)]
          exact ⟨h.define same name related, rfl⟩
      | none =>
        cases right : (s'.bindings c').get? name with
        | some u' => rw [left, right] at found; cases found
        | none =>
          rcases parents with ⟨root, root'⟩ | ⟨p, p', parent, parent', around⟩
          · rw [assign_of_root left root, assign_of_root right root']
            exact ⟨h, rfl⟩
          · rw [assign_of_parent left parent, assign_of_parent right parent']
            have shorter := Nat.add_lt_add (parent?_lt parent) (parent?_lt parent')
            exact ih (p + p') (size ▸ shorter) around rfl
    | emptyLeft empty parent around =>
      rw [assign_of_parent (by rw [empty]; rfl) parent]
      have shorter := Nat.add_lt_add_right (parent?_lt parent) c'
      exact ih _ (size ▸ shorter) around rfl
    | emptyRight empty parent around =>
      rw [assign_of_parent (s := s') (by rw [empty]; rfl) parent]
      have shorter := Nat.add_lt_add_left (parent?_lt parent) c
      exact ih _ (size ▸ shorter) around rfl

/-- Stores stay alike when a scope is opened in each of them. -/
lemma child (h : Store.Alike w s s') (near : w.near c c') :
    Store.Alike (w.together s.scopes.size s'.scopes.size) (s.child c).2 (s'.child c').2 := by
  -- The new scopes are beyond all that were related before, so old pairs are kept.
  obtain ⟨lt, lt'⟩ := h.bound near
  have grows := w.grows_together s.scopes.size s'.scopes.size
  refine ⟨?_, ?_, ?_⟩
  · rintro d d' (old | ⟨rfl, rfl⟩)
    · obtain ⟨less, less'⟩ := h.bound old
      refine (h.stands old).keep grows ?_ bindings_child (parent?_child_of_lt less) bindings_child
        (parent?_child_of_lt less')
      exact Or.imp_right fun eq => ⟨eq.1 ▸ Nat.ne_of_gt less, eq.2 ▸ Nat.ne_of_gt less'⟩
    · refine .same (.inr ⟨rfl, rfl⟩) ?_
        (.inr ⟨c, c', parent?_child_self lt, parent?_child_self lt', .inl near⟩)
      rw [bindings_child, bindings_child, bindings_of_size_le (Nat.le_refl _),
        bindings_of_size_le (Nat.le_refl _)]
      exact .nil
  · rintro d d' e e' (old | ⟨rfl, rfl⟩) (old' | ⟨rfl, rfl⟩)
    · exact h.unique old old'
    · obtain ⟨less, less'⟩ := h.bound (w.near_of_same old)
      exact iff_of_false (Nat.ne_of_lt less) (Nat.ne_of_lt less')
    · obtain ⟨less, less'⟩ := h.bound (w.near_of_same old')
      exact iff_of_false (Nat.ne_of_gt less) (Nat.ne_of_gt less')
    · exact iff_of_true rfl rfl
  · rintro d d' (old | ⟨rfl, rfl⟩)
    · rw [size_child, size_child]
      obtain ⟨less, less'⟩ := h.bound old
      exact ⟨Nat.lt_succ_of_lt less, Nat.lt_succ_of_lt less'⟩
    · rw [size_child, size_child]
      exact ⟨Nat.lt_succ_self _, Nat.lt_succ_self _⟩

/-- Stores stay alike when a scope is opened on the left only. -/
lemma childLeft (h : Store.Alike w s s') (near : w.near c c') :
    Store.Alike (w.beside s.scopes.size c') (s.child c).2 s' := by
  -- The new scope has no counterpart: it stands, empty, for the scope that the right side is in.
  obtain ⟨lt, lt'⟩ := h.bound near
  have grows := w.grows_beside s.scopes.size c'
  refine ⟨?_, h.unique, ?_⟩
  · rintro d d' (old | ⟨rfl, rfl⟩)
    · obtain ⟨less, less'⟩ := h.bound old
      exact (h.stands old).keep grows .inl bindings_child (parent?_child_of_lt less) rfl rfl
    · refine .emptyLeft ?_ (parent?_child_self lt) (.inl near) fun e' same => ?_
      · rw [bindings_child, bindings_of_size_le (Nat.le_refl _)]
      · exact Nat.lt_irrefl _ (h.bound (w.near_of_same same)).1
  · rintro d d' (old | ⟨rfl, rfl⟩)
    · rw [size_child]
      exact (h.bound old).imp_left Nat.lt_succ_of_lt
    · rw [size_child]
      exact ⟨Nat.lt_succ_self _, lt'⟩

/-- Stores stay alike when a scope is opened on the right only. -/
lemma childRight (h : Store.Alike w s s') (near : w.near c c') :
    Store.Alike (w.beside c s'.scopes.size) s (s'.child c').2 := by
  obtain ⟨lt, lt'⟩ := h.bound near
  have grows := w.grows_beside c s'.scopes.size
  refine ⟨?_, h.unique, ?_⟩
  · rintro d d' (old | ⟨rfl, rfl⟩)
    · obtain ⟨less, less'⟩ := h.bound old
      exact (h.stands old).keep grows .inl rfl rfl bindings_child (parent?_child_of_lt less')
    · refine .emptyRight ?_ (parent?_child_self lt') (.inl near) fun e same => ?_
      · rw [bindings_child, bindings_of_size_le (Nat.le_refl _)]
      · exact Nat.lt_irrefl _ (h.bound (w.near_of_same same)).2
  · rintro d d' (old | ⟨rfl, rfl⟩)
    · rw [size_child]
      exact (h.bound old).imp_right Nat.lt_succ_of_lt
    · rw [size_child]
      exact ⟨lt, Nat.lt_succ_self _⟩

end Store.Alike

/-- Stores paired up to empty scopes. -/
def Pairing.emptyScopes : Pairing where
  stores := Store.Alike
  lookup name h near := h.lookup near name
  define name h same related := h.define same name related
  assign name h near related := h.assign near name related
  child {w _ _ _ _} h near := ⟨_, w.grows_together _ _, Or.inr ⟨rfl, rfl⟩, h.child near⟩
  childLeft {w _ _ _ _} h near := ⟨_, w.grows_beside _ _, Or.inr ⟨rfl, rfl⟩, h.childLeft near⟩
  childRight {w _ _ _ _} h near := ⟨_, w.grows_beside _ _, Or.inr ⟨rfl, rfl⟩, h.childRight near⟩

/-- The world in which only the globals stand for each other. -/
def World.globals : World where
  near c c' := c = Store.globals ∧ c' = Store.globals
  same c c' := c = Store.globals ∧ c' = Store.globals
  near_of_same := id

/-- The initial store is like itself. -/
lemma Store.Alike.initial : Store.Alike .globals .initial .initial := by
  refine ⟨?_, ?_, ?_⟩
  · rintro c c' ⟨rfl, rfl⟩
    exact .same ⟨rfl, rfl⟩ (.cons ⟨rfl, .native .clock 0⟩ .nil) (.inl ⟨rfl, rfl⟩)
  · rintro c c' d d' ⟨rfl, rfl⟩ ⟨rfl, rfl⟩
    exact Iff.rfl
  · rintro c c' ⟨rfl, rfl⟩
    exact ⟨Nat.one_pos, Nat.one_pos⟩

end Lox
