import Lox.Machine.Basic
import Lox.Proofs.Store.WellFormed

/-!
# Nearest bindings

The owner of a name at a scope is the first scope on the way outwards that binds it. A name means
what its owner binds it to, an assignment changes the owner and is seen from all scopes with that
owner, and a definition is seen from all scopes for which nothing nearer binds the name. Nothing else
is seen to change, in any scope of the tree and for any name.
-/

namespace Lox

namespace Store

/-- The stores that any sequence of openings, definitions and assignments makes of the globals. -/
inductive Built : Store → Prop where
  | initial :
    Built .initial
  | child {s : Store} {p : ScopeId} :
    Built s → p < s.scopes.size →
    Built (s.child p).2
  | define {s : Store} {c : ScopeId} (name : String) (v : Value) :
    Built s → c < s.scopes.size →
    Built (s.define c name v)
  | assign {s : Store} {c : ScopeId} (name : String) (v : Value) :
    Built s → c < s.scopes.size →
    Built (s.assign c name v).1

/-- The scopes on the way outwards from a scope, with the scope itself. -/
def path (s : Store) (c : ScopeId) : List ScopeId :=
  match h : s.parent? c with
  | some p =>
    have := parent?_lt h
    c :: s.path p
  | none => [c]
termination_by c

/-- The first scope on the way outwards that binds the name. -/
def owner? (s : Store) (c : ScopeId) (name : String) : Option ScopeId :=
  (s.path c).find? fun d => ((s.bindings d).get? name).isSome

/-- The way outwards from `t` comes to `c`, and past no other scope that binds the name before. -/
def Unshadowed (s : Store) (t c : ScopeId) (name : String) : Prop :=
  ∃ nearer further, s.path t = nearer ++ c :: further ∧
    ∀ d ∈ nearer, (s.bindings d).get? name = none

variable {s : Store} {c d p t : ScopeId} {name key : String} {v : Value}

/-- The path of a scope goes on with that of its parent. -/
lemma path_of_parent (h : s.parent? c = some p) : s.path c = c :: s.path p := by
  rw [path]
  split
  · next found =>
    rw [h] at found
    cases found
    rfl
  · next found =>
    rw [h] at found
    cases found

/-- The path of a scope without a parent is the scope. -/
lemma path_of_root (h : s.parent? c = none) : s.path c = [c] := by
  rw [path]
  split
  · next found =>
    rw [h] at found
    cases found
  · rfl

/-- The path of a scope begins with the scope itself. -/
lemma exists_path (s : Store) (c : ScopeId) : ∃ ps, s.path c = c :: ps := by
  cases parent : s.parent? c with
  | none => exact ⟨[], path_of_root parent⟩
  | some p => exact ⟨s.path p, path_of_parent parent⟩

/-- A store that is built is well formed. -/
lemma Built.wellFormed (built : s.Built) : s.WellFormed := by
  induction built with
  | initial => exact .initial
  | child _ lt ih => exact ih.child lt
  | define name v _ _ ih => exact ih.define _ name v
  | @assign s c name v _ _ ih =>
    rcases s.assign_cases c name v with same | ⟨d, same⟩
    · rw [same]
      exact ih
    · rw [same]
      exact ih.define d name v

namespace WellFormed

variable (h : s.WellFormed)

include h

/-- The way outwards follows the parents with which scopes were opened. -/
lemma follows (c : ScopeId) : s.Path c (s.path c) := by
  induction c using Nat.strongRecOn with
  | ind c ih =>
    cases parent : s.parent? c with
    | none =>
      rw [path_of_root parent]
      exact .root ((h.parent?_eq c).symm.trans parent)
    | some p =>
      rw [path_of_parent parent]
      exact .outwards ((h.parent?_eq c).symm.trans parent) (ih p (parent?_lt parent))

/-- A name means what its owner binds it to. -/
lemma get?_eq_owner (c : ScopeId) (name : String) :
    s.get? c name = (s.owner? c name).bind fun d => (s.bindings d).get? name := by
  rw [h.get?_path (h.follows c), owner?]
  induction s.path c with
  | nil => rfl
  | cons d rest ih =>
    rw [List.findSome?_cons, List.find?_cons]
    cases bound : (s.bindings d).get? name with
    | none => exact ih
    | some v => exact bound.symm

/-- An assignment changes the binding of the owner. -/
lemma assign_of_owner (owner : s.owner? c name = some d) (v : Value) :
    s.assign c name v = (s.define d name v, true) := by
  have walked := h.assign_path (h.follows c) name v
  rw [owner?] at owner
  rw [owner] at walked
  exact walked

/-- Without an owner, it changes nothing. -/
lemma assign_of_no_owner (free : s.owner? c name = none) (v : Value) :
    s.assign c name v = (s, false) := by
  have walked := h.assign_path (h.follows c) name v
  rw [owner?] at free
  rw [free] at walked
  exact walked

end WellFormed

/-- What has an owner is bound there. -/
lemma exists_of_owner (owner : s.owner? c name = some d) :
    ∃ v, (s.bindings d).get? name = some v := by
  rw [owner?] at owner
  have bound := List.find?_some owner
  exact Option.isSome_iff_exists.mp bound

/-- The owner is a scope that exists. -/
lemma lt_of_owner (owner : s.owner? c name = some d) : d < s.scopes.size := by
  obtain ⟨v, bound⟩ := exists_of_owner owner
  rcases Nat.lt_or_ge d s.scopes.size with lt | ge
  · exact lt
  · rw [bindings_of_size_le ge] at bound
    exact nomatch bound

/-- A scope that binds a name owns it wherever it is not shadowed. -/
lemma unshadowed_iff_owner (bound : (s.bindings d).get? name ≠ none) :
    s.Unshadowed t d name ↔ s.owner? t name = some d := by
  rw [owner?, List.find?_eq_some_iff_append, Option.isSome_iff_ne_none, and_iff_right bound]
  constructor
  · rintro ⟨nearer, further, split, free⟩
    exact ⟨nearer, further, split, fun d mem => by rw [free d mem]; rfl⟩
  · rintro ⟨nearer, further, split, free⟩
    exact ⟨nearer, further, split, fun d mem => by simpa using free d mem⟩

/-- The way outwards from `t` comes to `c` if it begins there, or if nothing is bound at `t` and the way
from its parent does. -/
lemma unshadowed_iff : s.Unshadowed t c name ↔
    t = c ∨ (s.bindings t).get? name = none ∧
      ∃ p, s.parent? t = some p ∧ s.Unshadowed p c name := by
  obtain ⟨further, first⟩ := exists_path s t
  constructor
  · rintro ⟨nearer, rest, way, free⟩
    cases nearer with
    | nil =>
      rw [first] at way
      exact .inl (List.cons.inj way).1
    | cons e nearer =>
      cases parent : s.parent? t with
      | none =>
        rw [path_of_root parent] at way
        exact absurd (List.cons.inj way).2 (by simp)
      | some p =>
        rw [path_of_parent parent] at way
        obtain ⟨rfl, onwards⟩ := List.cons.inj way
        obtain ⟨here, others⟩ := List.forall_mem_cons.mp free
        exact .inr ⟨here, p, rfl, nearer, rest, onwards, others⟩
  · rintro (rfl | ⟨here, p, parent, nearer, rest, onwards, others⟩)
    · exact ⟨[], further, first, List.forall_mem_nil _⟩
    · refine ⟨t :: nearer, rest, ?_, List.forall_mem_cons.mpr ⟨here, others⟩⟩
      rw [path_of_parent parent, onwards]
      rfl

/-- What a scope binds behind a definition. -/
lemma get?_bindings_define (lt : c < s.scopes.size) :
    ((s.define c name v).bindings d).get? key =
      if d = c ∧ key = name then some v else (s.bindings d).get? key := by
  by_cases here : d = c
  · subst here
    rw [bindings_define_self lt, Bindings.get?_set, if_congr eq_comm rfl rfl]
    simp only [true_and]
  · rw [bindings_define_of_ne here, if_neg fun both => here both.1]

/-- A definition gives the name its value wherever its scope is not shadowed. -/
lemma get?_define_of_unshadowed (lt : c < s.scopes.size) (clear : s.Unshadowed t c name) :
    (s.define c name v).get? t name = some v := by
  induction t using Nat.strongRecOn with
  | ind t ih =>
    rw [get?_eq, get?_bindings_define lt, parent?_define]
    rcases unshadowed_iff.mp clear with rfl | ⟨free, p, parent, clear⟩
    · rw [if_pos ⟨rfl, rfl⟩]
      rfl
    · split
      · rfl
      · rw [free, parent]
        exact ih p (parent?_lt parent) clear

/-- Everywhere else, and for all other names, a definition changes nothing. -/
lemma get?_define_of_shadowed (lt : c < s.scopes.size)
    (other : ¬ (key = name ∧ s.Unshadowed t c name)) :
    (s.define c name v).get? t key = s.get? t key := by
  induction t using Nat.strongRecOn with
  | ind t ih =>
    have elsewhere : ¬ (t = c ∧ key = name) :=
      fun here => other ⟨here.2, unshadowed_iff.mpr (.inl here.1)⟩
    rw [get?_eq, get?_eq s, get?_bindings_define lt, if_neg elsewhere, parent?_define]
    cases bound : (s.bindings t).get? key with
    | some u => rfl
    | none =>
      rw [Option.none_or, Option.none_or]
      cases parent : s.parent? t with
      | none => rfl
      | some p =>
        refine ih p (parent?_lt parent) fun further => other ⟨further.1, ?_⟩
        obtain ⟨rfl, clear⟩ := further
        exact unshadowed_iff.mpr (.inr ⟨bound, p, parent, clear⟩)

/-- An assignment gives the name its value wherever it has the same owner, and changes nothing else. -/
lemma WellFormed.get?_assign (h : s.WellFormed) (owner : s.owner? c name = some d) (v : Value)
    (t : ScopeId) (key : String) :
    (s.assign c name v).1.get? t key =
      if key = name ∧ s.owner? t name = some d then some v else s.get? t key := by
  obtain ⟨u, bound⟩ := exists_of_owner owner
  have lt := lt_of_owner owner
  have owned (t : ScopeId) : s.Unshadowed t d name ↔ s.owner? t name = some d :=
    unshadowed_iff_owner (by rw [bound]; exact nofun)
  rw [h.assign_of_owner owner]
  split
  · next both =>
    obtain ⟨rfl, same⟩ := both
    exact get?_define_of_unshadowed lt ((owned t).mpr same)
  · next other =>
    exact get?_define_of_shadowed lt (mt (And.imp_right (owned t).mp) other)

end Store

namespace Machine

/-- What the operations on the scopes of a machine do, in the current scope and as seen from all
scopes. -/
structure NearestBinding (m : Machine) : Prop where
  /-- The scopes in which an owner is looked for are those on the way to the globals. -/
  path (t : ScopeId) : t < m.store.scopes.size → m.store.Path t (m.store.path t)
  get (t : ScopeId) (name : String) :
    m.store.get? t name = (m.store.owner? t name).bind fun d => (m.store.bindings d).get? name
  lookup {name : Token} {d : ScopeId} :
    m.store.owner? m.current name.lexeme = some d →
    ∃ v, (m.store.bindings d).get? name.lexeme = some v ∧ Eval.lookup name m = .ok v m
  lookup_undefined {name : Token} :
    m.store.owner? m.current name.lexeme = none →
    Eval.lookup name m = .error (Store.undefined name) m
  assign {name : Token} {d : ScopeId} (v : Value) :
    m.store.owner? m.current name.lexeme = some d →
    ∃ s, Eval.assign name v m = .ok () { m with store := s } ∧
      ∀ t key, s.get? t key =
        if key = name.lexeme ∧ m.store.owner? t name.lexeme = some d then some v
        else m.store.get? t key
  assign_undefined {name : Token} (v : Value) :
    m.store.owner? m.current name.lexeme = none →
    Eval.assign name v m = .error (Store.undefined name) m
  define (name : Token) (v : Value) :
    ∃ s, Eval.define name v m = .ok () { m with store := s } ∧
      (∀ t, m.store.Unshadowed t m.current name.lexeme → s.get? t name.lexeme = some v) ∧
      ∀ t key, ¬ (key = name.lexeme ∧ m.store.Unshadowed t m.current name.lexeme) →
        s.get? t key = m.store.get? t key

/-- Whatever sequence of operations has built the scopes, names mean their nearest bindings, and each
operation changes what it should and nothing else, in all scopes and for all names. -/
theorem nearest_binding {m : Machine} (built : m.store.Built)
    (lt : m.current < m.store.scopes.size) : m.NearestBinding where
  path t _ := built.wellFormed.follows t
  get := built.wellFormed.get?_eq_owner
  lookup {name d} owner := by
    obtain ⟨v, bound⟩ := Store.exists_of_owner owner
    have found : m.store.get? m.current name.lexeme = some v := by
      rw [built.wellFormed.get?_eq_owner, owner]
      exact bound
    refine ⟨v, bound, ?_⟩
    rw [Eval.lookup, found]
  lookup_undefined {name} free := by
    have missing : m.store.get? m.current name.lexeme = none := by
      rw [built.wellFormed.get?_eq_owner, free]
      rfl
    rw [Eval.lookup, missing]
  assign {name d} v owner := by
    refine ⟨(m.store.assign m.current name.lexeme v).1, ?_, built.wellFormed.get?_assign owner v⟩
    have assigned := built.wellFormed.assign_of_owner owner v
    dsimp only [Eval.assign]
    rw [assigned]
    rfl
  assign_undefined {name} v free := by
    dsimp only [Eval.assign]
    rw [built.wellFormed.assign_of_no_owner free]
    rfl
  define name v :=
    ⟨m.store.define m.current name.lexeme v, rfl,
      fun _ clear => Store.get?_define_of_unshadowed lt clear,
      fun _ _ other => Store.get?_define_of_shadowed lt other⟩

/-- An assignment two scopes further in is seen in the globals, and not behind a definition that
shadows them. -/
theorem nearest_binding_outwards :
    let name : Token := ⟨.identifier, "clock", none, 1, ⟨0, 5⟩⟩
    let inner := (((Store.initial.child 0).2.child 1).2.child 0).2
    let m : Machine := ⟨inner.define 3 "clock" (.boolean true), 2, #[], 0, 0⟩
    m.store.Built ∧ m.current < m.store.scopes.size ∧
      ∃ s, Eval.assign name .nil m = .ok () { m with store := s } ∧
        s.get? 0 "clock" = some .nil ∧ s.get? 3 "clock" = some (.boolean true) := by
  intro name inner m
  have built : m.store.Built :=
    .define _ _ (.child (.child (.child .initial (by decide)) (by decide)) (by decide)) (by decide)
  have lt : m.current < m.store.scopes.size := by decide
  have owner : m.store.owner? m.current name.lexeme = some 0 := by decide +kernel
  obtain ⟨s, assigned, seen⟩ := (nearest_binding built lt).assign .nil owner
  refine ⟨built, lt, s, assigned, ?_, ?_⟩
  · rw [seen, if_pos ⟨rfl, by decide +kernel⟩]
  · have shadows : m.store.owner? 3 name.lexeme = some 3 := by decide +kernel
    have apart : ¬ ("clock" = name.lexeme ∧ m.store.owner? 3 name.lexeme = some 0) := by
      rw [shadows]
      rintro ⟨_, ⟨⟩⟩
    rw [seen, if_neg apart, Store.get?_eq]
    rfl

end Machine

end Lox
