import Lox.Proofs.Simulation.Desugar
import Lox.Proofs.Store.Merge

/-!
# Programs in blocks

The names that a program declares at its top level live in the globals, next to the host functions.
Those of the same program in a block live in a scope of their own inside the globals. With the two
scopes merged, the stores are alike, so that `Pairing.inBlock` carries the simulation, and its mirror
image the simulation of the program in the block by the one without.
-/

namespace Lox

/-- Stores, the second of which has in its globals and its first scope what the first one has in its
globals. No scope stands for the globals of the second one alone. -/
structure Store.InBlock (w : World) (s s' : Store) : Prop where
  merged : ∃ t : Store, Store.Alike w s t ∧ t.Merges s'
  hidden {c c' : ScopeId} : w.near c c' → c' ≠ globals

namespace Store.InBlock

variable {w : World} {s s' : Store} {c c' : ScopeId} {v v' : Value}

/-- A name means values that are alike in scopes that stand for each other. -/
lemma lookup (h : Store.InBlock w s s') (near : w.near c c') (name : String) :
    Option.Rel (Value.Alike w) (s.get? c name) (s'.get? c' name) := by
  obtain ⟨t, alike, merges⟩ := h.merged
  rw [← merges.lookup (h.hidden near)]
  exact alike.lookup near name

/-- A declaration in two scopes that have the same bindings keeps the stores paired. -/
lemma define (h : Store.InBlock w s s') (same : w.same c c') (name : String)
    (related : v.Alike w v') : Store.InBlock w (s.define c name v) (s'.define c' name v') := by
  obtain ⟨t, alike, merges⟩ := h.merged
  have visible := h.hidden (w.near_of_same same)
  exact ⟨⟨_, alike.define same name related, merges.define visible name v'⟩, h.hidden⟩

/-- An assignment finds its variable in both stores or in none, and keeps them paired. -/
lemma assign (h : Store.InBlock w s s') (near : w.near c c') (name : String)
    (related : v.Alike w v') :
    Store.InBlock w (s.assign c name v).1 (s'.assign c' name v').1 ∧
      (s.assign c name v).2 = (s'.assign c' name v').2 := by
  obtain ⟨t, alike, merges⟩ := h.merged
  obtain ⟨alike₁, found⟩ := alike.assign near name related
  obtain ⟨merges₁, found₁⟩ := merges.assign (h.hidden near) name v'
  exact ⟨⟨⟨_, alike₁, merges₁⟩, h.hidden⟩, found.trans found₁⟩

/-- A new scope is not the globals. -/
lemma new_ne_globals (h : Store.InBlock w s s') : s'.scopes.size ≠ globals := by
  obtain ⟨t, -, merges⟩ := h.merged
  exact Nat.ne_of_gt (Nat.lt_trans globals_lt_first merges.opened)

/-- New scopes on both sides keep the stores paired. -/
lemma child (h : Store.InBlock w s s') (near : w.near c c') :
    Store.InBlock (w.together s.scopes.size s'.scopes.size) (s.child c).2 (s'.child c').2 := by
  obtain ⟨t, alike, merges⟩ := h.merged
  have alike₁ := alike.child near
  rw [merges.size] at alike₁
  refine ⟨⟨_, alike₁, merges.child (h.hidden near)⟩, ?_⟩
  rintro d d' (old | ⟨rfl, rfl⟩)
  · exact h.hidden old
  · exact h.new_ne_globals

/-- A new scope in the first store alone keeps the stores paired. -/
lemma childLeft (h : Store.InBlock w s s') (near : w.near c c') :
    Store.InBlock (w.beside s.scopes.size c') (s.child c).2 s' := by
  obtain ⟨t, alike, merges⟩ := h.merged
  refine ⟨⟨t, alike.childLeft near, merges⟩, ?_⟩
  rintro d d' (old | ⟨rfl, rfl⟩)
  · exact h.hidden old
  · exact h.hidden near

/-- A new scope in the second store alone keeps the stores paired. -/
lemma childRight (h : Store.InBlock w s s') (near : w.near c c') :
    Store.InBlock (w.beside c s'.scopes.size) s (s'.child c').2 := by
  obtain ⟨t, alike, merges⟩ := h.merged
  have alike₁ := alike.childRight near
  rw [merges.size] at alike₁
  refine ⟨⟨_, alike₁, merges.child (h.hidden near)⟩, ?_⟩
  rintro d d' (old | ⟨rfl, rfl⟩)
  · exact h.hidden old
  · exact h.new_ne_globals

end Store.InBlock

/-- Stores paired up to a block around the whole program. -/
def Pairing.inBlock : Pairing where
  stores := Store.InBlock
  lookup name h near := h.lookup near name
  define name h same related := h.define same name related
  assign name h near related := h.assign near name related
  child {w _ _ _ _} h near := ⟨_, w.grows_together _ _, Or.inr ⟨rfl, rfl⟩, h.child near⟩
  childLeft {w _ _ _ _} h near := ⟨_, w.grows_beside _ _, Or.inr ⟨rfl, rfl⟩, h.childLeft near⟩
  childRight {w _ _ _ _} h near := ⟨_, w.grows_beside _ _, Or.inr ⟨rfl, rfl⟩, h.childRight near⟩

/-- The world in which only the globals and the first scope stand for each other. -/
def World.inBlock : World where
  near c c' := c = Store.globals ∧ c' = Store.first
  same c c' := c = Store.globals ∧ c' = Store.first
  near_of_same := id

/-- A new store and one with a scope opened in it. -/
lemma Store.InBlock.initial :
    Store.InBlock .inBlock .initial (Store.initial.child Store.globals).2 := by
  refine ⟨⟨_, ⟨?_, ?_, ?_⟩, Merges.initial⟩, ?_⟩
  · rintro c c' ⟨rfl, rfl⟩
    exact .same ⟨rfl, rfl⟩ (.cons ⟨rfl, .native .clock 0⟩ .nil) (.inl ⟨rfl, rfl⟩)
  · rintro c c' d d' ⟨rfl, rfl⟩ ⟨rfl, rfl⟩
    exact iff_of_true rfl rfl
  · rintro c c' ⟨rfl, rfl⟩
    exact ⟨Nat.one_pos, Nat.one_lt_two⟩
  · rintro c c' ⟨rfl, rfl⟩
    exact Nat.ne_of_gt globals_lt_first

/-- A new machine and one that has entered a block. -/
lemma Machine.Alike.inBlock : Machine.initial.Alike .inBlock .inBlock Store.globals Store.first
    (Eval.opened Store.globals [] .initial) :=
  ⟨.initial, rfl, rfl, .nil, rfl, rfl⟩

/-- What the end of a run shows: the printed lines, and the text of the error if there is one. -/
def Outcome.shown {α : Type} : Outcome α → Option (List String × Option String)
  | .ok _ m => some (m.lines, none)
  | .error e m => some (m.lines, some e.text)
  | .exhausted => none

/-- Computations that end alike show the same. -/
lemma Outcome.Alike.shown_eq {α β : Type} {P : Pairing} {w : World} {c c' : ScopeId}
    {R : α → β → Prop} {o : Outcome α} {o' : Outcome β} (h : o.Alike P w c c' R o') :
    o.shown = o'.shown := by
  cases h with
  | ok _ alike => rw [shown, shown, alike.lines_eq]
  | error failure alike =>
    have text := congrArg Diagnostic.text failure.diagnostic_eq
    rw [shown, shown, alike.lines_eq]
    exact congrArg (fun text => some (_, some text)) text

/-- Going back to another scope is not shown. -/
lemma Outcome.shown_restored {α : Type} (c : ScopeId) (o : Outcome α) :
    (Eval.restored c o).shown = o.shown := by
  cases o <;> rfl

section

variable {P : Pairing} {w : World} {c c' : ScopeId} {m m' : Machine} {program program' : Program}
  {result : List String × Option String}

/-- Programs that are alike show the same on machines that are alike. -/
lemma Machine.Alike.shows (h : m.Alike P w c c' m') (same : w.same c c')
    (alike : Stmt.AllAlike program program') {clock : Clock} {fuel : Nat}
    (shown : (m.interpret clock fuel program).shown = some result) :
    ∃ fuel', (m'.interpret clock fuel' program').shown = some result := by
  have ended : m.interpret clock fuel program ≠ .exhausted := by
    intro cut
    rw [cut] at shown
    cases shown
  obtain ⟨o, w', ⟨k, settled⟩, -, ends⟩ :=
    (Eval.matched P clock fuel).executeAll alike same w m m' (.refl w) h ended
  have right : m'.interpret clock k program' = o := settled k (Nat.le_refl k)
  refine ⟨k, ?_⟩
  rw [right, ← ends.shown_eq]
  exact shown

/-- A block runs like its statements on a machine that has entered it. -/
lemma Machine.interpret_block (clock : Clock) (fuel : Nat) (program : Program) (m : Machine) :
    m.interpret clock (fuel + 2) [.block program] =
      Eval.restored m.current ((Eval.opened m.current [] m).interpret clock fuel program) := by
  rw [interpret, Eval.executeAll_single]
  rfl

/-- A block shows what its statements show on a machine that has entered it. -/
lemma Machine.interpret_block_shows (clock : Clock) (program : Program) (m : Machine) :
    (∃ fuel, (m.interpret clock fuel [.block program]).shown = some result) ↔
      ∃ fuel, ((Eval.opened m.current [] m).interpret clock fuel program).shown = some result := by
  constructor
  · rintro ⟨fuel, shown⟩
    match fuel with
    | 0 | 1 => cases shown
    | fuel + 2 =>
      rw [interpret_block, Outcome.shown_restored] at shown
      exact ⟨fuel, shown⟩
  · rintro ⟨fuel, shown⟩
    refine ⟨fuel + 2, ?_⟩
    rw [interpret_block, Outcome.shown_restored]
    exact shown

/-- On a new machine, a program in a block shows what it shows without. -/
theorem Machine.interpret_inBlock (alike : Stmt.AllAlike program program) (clock : Clock) :
    (∃ fuel, (Machine.initial.interpret clock fuel [.block program]).shown = some result) ↔
      ∃ fuel, (Machine.initial.interpret clock fuel program).shown = some result := by
  rw [interpret_block_shows]
  constructor
  · rintro ⟨fuel, shown⟩
    exact Machine.Alike.inBlock.mirror.shows ⟨rfl, rfl⟩ alike shown
  · rintro ⟨fuel, shown⟩
    exact Machine.Alike.inBlock.shows ⟨rfl, rfl⟩ alike shown

end

end Lox
