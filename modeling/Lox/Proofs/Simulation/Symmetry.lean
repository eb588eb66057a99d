import Lox.Proofs.Simulation.EmptyScopes

/-!
# Alikeness is symmetric

Nothing in `Lox.Proofs.Simulation.Relation` prefers the left side: steps may stand inside the loop
bodies of either statement, and scopes may be empty on either side. Machines that are alike are so
the other way round, in the world read backwards. Whatever pairs their stores, its mirror image is a
pairing as well, so that every simulation holds in both directions.
-/

namespace Lox

/-- Statements that are alike declare alike. -/
lemma Stmt.Alike.plain {s s' : Stmt} (h : s.Alike s') (plain : s.Plain) : s'.Plain := by
  cases h with
  | var name initializer => exact plain
  | function name parameters body => exact plain
  | _ => exact trivial

mutual

/-- Statements that are alike are so the other way round. -/
lemma Stmt.Alike.symm {s s' : Stmt} : s.Alike s' → s'.Alike s
  | .var name initializer => .var name initializer
  | .function name parameters body => .function name parameters body.symm
  | .expression e => .expression e
  | .print e => .print e
  | .block body => .block body.symm
  | .ifThen condition branch plain => .ifThen condition branch.symm (branch.plain plain)
  | .ifElse condition thenBranch thenPlain elseBranch elsePlain =>
    .ifElse condition thenBranch.symm (thenBranch.plain thenPlain) elseBranch.symm
      (elseBranch.plain elsePlain)
  | .loop condition step body plain => .loop condition step body.symm (body.plain plain)
  | .stepInside condition step body plain =>
    .stepOutside condition step body.symm (body.plain plain)
  | .stepOutside condition step body plain =>
    .stepInside condition step body.symm (body.plain plain)
  | .ret keyword value => .ret keyword value

/-- Statements are alike the other way round. -/
lemma Stmt.AllAlike.symm {ss ss' : List Stmt} : Stmt.AllAlike ss ss' → Stmt.AllAlike ss' ss
  | .nil => .nil
  | .cons first rest => .cons first.symm rest.symm

end

mutual

/-- A statement that another one is like is like itself. -/
lemma Stmt.Alike.right {s s' : Stmt} : s.Alike s' → s'.Alike s'
  | .var name initializer => .var name initializer
  | .function name parameters body => .function name parameters body.right
  | .expression e => .expression e
  | .print e => .print e
  | .block body => .block body.right
  | .ifThen condition branch plain => .ifThen condition branch.right (branch.plain plain)
  | .ifElse condition thenBranch thenPlain elseBranch elsePlain =>
    .ifElse condition thenBranch.right (thenBranch.plain thenPlain) elseBranch.right
      (elseBranch.plain elsePlain)
  | .loop condition step body plain => .loop condition step body.right (body.plain plain)
  | .stepInside condition step body plain =>
    .loop condition none (.block (.cons body.right (.cons (.expression step) .nil))) trivial
  | .stepOutside condition step body plain =>
    .loop condition (some step) body.right (body.plain plain)
  | .ret keyword value => .ret keyword value

/-- Statements that others are like are like themselves. -/
lemma Stmt.AllAlike.right {ss ss' : List Stmt} : Stmt.AllAlike ss ss' → Stmt.AllAlike ss' ss'
  | .nil => .nil
  | .cons first rest => .cons first.right rest.right

end

/-- The world read backwards. -/
def World.flip (w : World) : World where
  near c c' := w.near c' c
  same c c' := w.same c' c
  near_of_same := w.near_of_same

section

variable {w : World}

/-- Values that are alike are so the other way round. -/
lemma Value.Alike.flip {v v' : Value} (h : v.Alike w v') : v'.Alike w.flip v := by
  cases h with
  | number x => exact .number x
  | string s => exact .string s
  | nil => exact .nil
  | boolean b => exact .boolean b
  | native builtin serial => exact .native builtin serial
  | function name parameters serial body near =>
    exact .function name parameters serial body.symm near

/-- Causes are alike the other way round. -/
lemma RuntimeCause.Alike.flip {cause cause' : RuntimeCause} (h : cause.Alike w cause') :
    cause'.Alike w.flip cause := by
  cases h with
  | notNumber v => exact .notNumber v.flip
  | notNumbers u v => exact .notNumbers u.flip v.flip
  | notAddable u v => exact .notAddable u.flip v.flip
  | undefinedVariable name => exact .undefinedVariable name
  | notCallable v => exact .notCallable v.flip
  | wrongArity actual expected => exact .wrongArity actual expected

/-- Errors are alike the other way round. -/
lemma RuntimeError.Alike.flip {e e' : RuntimeError} (h : e.Alike w e') : e'.Alike w.flip e := by
  obtain ⟨token, cause⟩ := h
  exact .mk token cause.flip

/-- Bindings are alike the other way round. -/
lemma Eval.BindingsAlike.flip {bs bs' : Bindings} (h : Eval.BindingsAlike w bs bs') :
    Eval.BindingsAlike w.flip bs' bs :=
  List.Forall₂.flip (h.imp fun _ _ h => ⟨h.1.symm, h.2.flip⟩)

/-- A scope stands for another one as that one does for it. -/
lemma Store.Stands.flip {s s' : Store} {c c' : ScopeId} (h : Store.Stands w s s' c c') :
    Store.Stands w.flip s' s c' c := by
  cases h with
  | same same bindings parents =>
    refine .same same bindings.flip ?_
    rcases parents with ⟨left, right⟩ | ⟨p, p', left, right, near⟩
    · exact .inl ⟨right, left⟩
    · exact .inr ⟨p', p, right, left, near⟩
  | emptyLeft empty parent near none => exact .emptyRight empty parent near none
  | emptyRight empty parent near none => exact .emptyLeft empty parent near none

/-- Stores are alike the other way round. -/
lemma Store.Alike.flip {s s' : Store} (h : Store.Alike w s s') : Store.Alike w.flip s' s where
  stands near := (h.stands near).flip
  unique first second := (h.unique first second).symm
  bound near := (h.bound near).symm

end

/-- Stores paired the other way round. -/
def Pairing.mirror (P : Pairing) : Pairing where
  stores w s s' := P.stores w.flip s' s
  lookup {_ s s' c c'} name h near := by
    have found := P.lookup name h near
    generalize s'.get? c' name = left at found ⊢
    generalize s.get? c name = right at found ⊢
    cases found with
    | some related => exact .some related.flip
    | none => exact .none
  define name h same related := P.define name h same related.flip
  assign name h near related := (P.assign name h near related.flip).imp_right Eq.symm
  child h near := by
    obtain ⟨w', grows, same, stores⟩ := P.child h near
    exact ⟨w'.flip, ⟨grows.near, grows.same⟩, same, stores⟩
  childLeft h near := by
    obtain ⟨w', grows, near', stores⟩ := P.childRight h near
    exact ⟨w'.flip, ⟨grows.near, grows.same⟩, near', stores⟩
  childRight h near := by
    obtain ⟨w', grows, near', stores⟩ := P.childLeft h near
    exact ⟨w'.flip, ⟨grows.near, grows.same⟩, near', stores⟩

/-- Machines that are alike are so the other way round, with their stores paired so. -/
lemma Machine.Alike.mirror {P : Pairing} {w : World} {c c' : ScopeId} {m m' : Machine}
    (h : m.Alike P w c c' m') : m'.Alike P.mirror w.flip c' c m where
  store := h.store
  current := h.current'
  current' := h.current
  printed := List.Forall₂.flip (h.printed.imp fun _ _ => Value.Alike.flip)
  readings := h.readings.symm
  serial := h.serial.symm

/-- Empty scopes may be on either side. -/
lemma Machine.Alike.flip {w : World} {c c' : ScopeId} {m m' : Machine}
    (h : m.Alike .emptyScopes w c c' m') : m'.Alike .emptyScopes w.flip c' c m :=
  { h.mirror with store := Store.Alike.flip h.store }

end Lox
