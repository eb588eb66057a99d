import Lox.Value.Error

/-!
# The store of scopes

Every block and every call gets a scope of its own, and no scope ever goes away, since a function
may hold it. A scope binds names to values and lies inside an older scope, its parent; only the
globals have none. A name means its nearest binding on the way outwards.
-/

namespace Lox

/-- The bindings of a scope, each name once, in the order in which they were made. -/
abbrev Bindings := List (String × Value)

/-- The value bound to a name. -/
def Bindings.get? (bindings : Bindings) (name : String) : Option Value :=
  match bindings with
  | [] => none
  | (key, value) :: rest => if key = name then some value else Bindings.get? rest name

/-- Binds a name, in place of an earlier binding of it. -/
def Bindings.set (bindings : Bindings) (name : String) (value : Value) : Bindings :=
  match bindings with
  | [] => [(name, value)]
  | (key, old) :: rest =>
    if key = name then (name, value) :: rest else (key, old) :: Bindings.set rest name value

/-- A scope. -/
structure Scope where
  bindings : Bindings
  parent : Option ScopeId

/-- All scopes ever opened, the globals first. -/
structure Store where
  scopes : Array Scope

namespace Store

/-- The scope that outlives every program. -/
def globals : ScopeId := 0

/-- A store with the globals only, which bind the host functions. -/
def initial : Store :=
  ⟨#[⟨[(Builtin.clock.name, .native .clock 0)], none⟩]⟩

/-- The bindings of a scope; none if there is no such scope. -/
def bindings (s : Store) (scope : ScopeId) : Bindings :=
  match s.scopes[scope]? with
  | some found => found.bindings
  | none => []

/-- The scope around a scope. Only an older scope can be around it. -/
def parent? (s : Store) (scope : ScopeId) : Option ScopeId :=
  match s.scopes[scope]? with
  | some ⟨_, some parent⟩ => if parent < scope then some parent else none
  | _ => none

/-- The scope around a scope is older. -/
theorem parent?_lt {s : Store} {scope parent : ScopeId} (h : s.parent? scope = some parent) :
    parent < scope := by
  unfold parent? at h
  split at h
  · split at h
    · next lt => exact Option.some.inj h ▸ lt
    · exact nomatch h
  · exact nomatch h

/-- The value that a name means in a scope. -/
def get? (s : Store) (scope : ScopeId) (name : String) : Option Value :=
  match (s.bindings scope).get? name with
  | some value => some value
  | none =>
    match h : s.parent? scope with
    | some parent =>
      have := parent?_lt h
      s.get? parent name
    | none => none
termination_by scope

/-- Binds a name in a scope. -/
def define (s : Store) (scope : ScopeId) (name : String) (value : Value) : Store :=
  ⟨s.scopes.modify scope fun found => { found with bindings := found.bindings.set name value }⟩

/-- Changes the value that a name means in a scope, where it is bound, and says whether it means
anything. -/
def assign (s : Store) (scope : ScopeId) (name : String) (value : Value) : Store × Bool :=
  match (s.bindings scope).get? name with
  | some _ => (s.define scope name value, true)
  | none =>
    match h : s.parent? scope with
    | some parent =>
      have := parent?_lt h
      s.assign parent name value
    | none => (s, false)
termination_by scope

/-- Opens an empty scope inside another one. -/
def child (s : Store) (parent : ScopeId) : ScopeId × Store :=
  (s.scopes.size, ⟨s.scopes.push ⟨[], some parent⟩⟩)

/-- Binds names in a scope from left to right. -/
def defineAll (s : Store) (scope : ScopeId) (bindings : List (String × Value)) : Store :=
  bindings.foldl (fun s (name, value) => s.define scope name value) s

/-- The error for a variable that means nothing. -/
def undefined (name : Token) : RuntimeError :=
  ⟨.undefinedVariable name.lexeme, name⟩

end Store

end Lox
