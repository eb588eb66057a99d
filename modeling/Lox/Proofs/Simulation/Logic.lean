import Lox.Proofs.Simulation.Relation
import Lox.Proofs.Machine.Fuel
import Lox.Proofs.Machine.Scopes

/-!
# Computations that match

`Eval.Matches P w c c' R x y` says that the computation `y`, given enough fuel, ends as `x` does:
started in machines that are alike and stand in the scopes `c` and `c'`, the two end in machines
that are alike and stand in these scopes again, with the same kind of error or with values in the
relation `R`. There is one rule for each way in which the evaluator puts computations together, so
that the simulation never looks into a machine.
-/

namespace Lox.Eval

variable {α β γ δ : Type}

/-- With any amount of fuel from some amount on, the computation ends in one way. -/
def Settles (y : Nat → Eval β) (m : Machine) (o : Outcome β) : Prop :=
  ∃ k, ∀ j, k ≤ j → y j m = o

/-- Wherever the first computation ends, the second one ends alike. -/
def Matches (P : Pairing) (w : World) (c c' : ScopeId) (R : World → α → β → Prop) (x : Eval α)
    (y : Nat → Eval β) : Prop :=
  ∀ w₁ m m', w.Grows w₁ → m.Alike P w₁ c c' m' → x m ≠ .exhausted →
    ∃ o w₂, Settles y m' o ∧ w₁.Grows w₂ ∧ Outcome.Alike P w₂ c c' (R w₂) (x m) o

/-- A computation that does not look at its fuel settles at once. -/
lemma Settles.const {y : Eval β} (m : Machine) : Settles (fun _ => y) m (y m) :=
  ⟨0, fun _ _ => rfl⟩

/-- What settles with one unit of fuel less settles. -/
lemma Settles.of_succ {y : Nat → Eval β} {m : Machine} {o : Outcome β}
    (h : Settles (fun k => y (k + 1)) m o) : Settles y m o := by
  obtain ⟨k, settled⟩ := h
  refine ⟨k + 1, fun j le => ?_⟩
  obtain ⟨i, rfl⟩ : ∃ i, j = i + 1 := ⟨j - 1, by omega⟩
  exact settled i (by omega)

/-- A sequence settles as its second part does behind the first. -/
lemma Settles.bind {y : Nat → Eval β} {g : Nat → β → Eval δ} {m m₁ : Machine} {b : β}
    {o : Outcome δ} (first : Settles y m (.ok b m₁)) (second : Settles (fun k => g k b) m₁ o) :
    Settles (fun k => y k >>= g k) m o := by
  obtain ⟨k₁, settled₁⟩ := first
  obtain ⟨k₂, settled₂⟩ := second
  refine ⟨max k₁ k₂, fun j le => ?_⟩
  change (y j >>= g j) m = o
  rw [bind_apply, settled₁ j (by omega)]
  exact settled₂ j (by omega)

/-- A sequence fails if its first part does. -/
lemma Settles.bind_error {y : Nat → Eval β} {g : Nat → β → Eval δ} {m m₁ : Machine}
    {e : RuntimeError} (first : Settles y m (.error e m₁)) :
    Settles (fun k => y k >>= g k) m (.error e m₁) := by
  obtain ⟨k, settled⟩ := first
  refine ⟨k, fun j le => ?_⟩
  change (y j >>= g j) m = .error e m₁
  rw [bind_apply, settled j le]

/-- A computation settles in a new scope as it does in the opened machine. -/
lemma Settles.inScope {y : Nat → Eval β} {parent : ScopeId} {bindings : List (String × Value)}
    {m : Machine} {o : Outcome β} (h : Settles y (opened parent bindings m) o) :
    Settles (fun k => inScope parent bindings (y k)) m (restored m.current o) := by
  obtain ⟨k, settled⟩ := h
  refine ⟨k, fun j le => ?_⟩
  change Eval.inScope parent bindings (y j) m = restored m.current o
  rw [inScope_apply, settled j le]

section

variable {P : Pairing} {w : World} {c c' d d' : ScopeId}

/-- Outcomes stay alike when their scopes are restored. -/
lemma restored_alike {R : α → β → Prop} {o : Outcome α} {o' : Outcome β}
    (h : Outcome.Alike P w d d' R o o') :
    Outcome.Alike P w c c' R (restored c o) (restored c' o') := by
  cases h with
  | ok related alike => exact .ok related { alike with current := rfl, current' := rfl }
  | error e alike => exact .error e { alike with current := rfl, current' := rfl }

/-- Bindings of the same names to values that are alike. -/
def BindingsAlike (w : World) (bs bs' : List (String × Value)) : Prop :=
  List.Forall₂ (fun b b' => b.1 = b'.1 ∧ b.2.Alike w b'.2) bs bs'

/-- Binding the same names to values that are alike. -/
lemma bindingsAlike_zip (names : List String) {vs vs' : List Value}
    (h : List.Forall₂ (Value.Alike w) vs vs') :
    BindingsAlike w (names.zip vs) (names.zip vs') := by
  induction h generalizing names with
  | nil =>
    rw [List.zip_nil_right]
    exact .nil
  | cons related _ ih =>
    cases names with
    | nil => exact .nil
    | cons name rest => exact .cons ⟨rfl, related⟩ (ih rest)

/-- Stores stay alike when the same names are declared one after another. -/
lemma defineAll_alike {s s' : Store} {bs bs' : List (String × Value)} (h : P.stores w s s')
    (same : w.same c c') (alike : BindingsAlike w bs bs') :
    P.stores w (s.defineAll c bs) (s'.defineAll c' bs') := by
  induction alike generalizing s s' with
  | nil => exact h
  | @cons b b' rest rest' first _ ih =>
    obtain ⟨name, v⟩ := b
    obtain ⟨name', v'⟩ := b'
    obtain ⟨rfl, related⟩ := first
    exact ih (P.define name h same related)

end

namespace Matches

variable {P : Pairing} {w w' : World} {c c' : ScopeId} {R : World → α → β → Prop}
  {S : World → γ → δ → Prop} {x : Eval α} {y : Nat → Eval β}

/-- A computation matches one that it matches when this one has a unit of fuel less. -/
lemma of_succ (h : Matches P w c c' R x fun k => y (k + 1)) : Matches P w c c' R x y := by
  intro w₁ m m' g alike ended
  obtain ⟨o, w₂, settled, g₂, alike₂⟩ := h w₁ m m' g alike ended
  exact ⟨o, w₂, settled.of_succ, g₂, alike₂⟩

/-- What a computation matches is matched by any computation that it extends. -/
lemma of_extends {x' : Eval α} (extended : Extends x x') (h : Matches P w c c' R x' y) :
    Matches P w c c' R x y := by
  intro w₁ m m' g alike ended
  have eq := extended m ended
  rw [← eq] at ended ⊢
  exact h w₁ m m' g alike ended

/-- What is cut off matches anything. -/
lemma of_exhausted : Matches P w c c' R exhausted y :=
  fun _ _ _ _ _ ended => (ended rfl).elim

/-- Values that are alike from now on match. -/
protected lemma pure {a : α} {b : β} (related : ∀ w', w.Grows w' → R w' a b) :
    Matches P w c c' R (pure a) fun _ => pure b := by
  intro w₁ m m' g alike _
  exact ⟨_, w₁, .const m', .refl w₁, .ok (related w₁ g) alike⟩

/-- Failures of the same kind at the same token. -/
protected lemma fail {cause cause' : RuntimeCause} (token : Token) (h : cause.Alike w cause') :
    Matches P w c c' R (fail cause token) fun _ => fail cause' token := by
  intro w₁ m m' g alike _
  exact ⟨_, w₁, .const m', .refl w₁, .error (.mk token (h.grow g)) alike⟩

/-- Sequences match if their parts do, in whatever world the first parts end. -/
protected lemma bind {f : α → Eval γ} {g : Nat → β → Eval δ} (first : Matches P w c c' R x y)
    (second : ∀ w' a b, w.Grows w' → R w' a b → Matches P w' c c' S (f a) fun k => g k b) :
    Matches P w c c' S (x >>= f) fun k => y k >>= g k := by
  intro w₁ m m' grows alike ended
  rw [bind_apply] at ended ⊢
  have ended₁ : x m ≠ .exhausted := by
    intro stuck
    rw [stuck] at ended
    exact ended rfl
  obtain ⟨o, w₂, settled, grows₂, alike₂⟩ := first w₁ m m' grows alike ended₁
  generalize x m = left at alike₂ ended
  cases alike₂ with
  | @ok a b m₁ m₁' related alike₁ =>
    obtain ⟨o, w₃, settled', grows₃, alike₃⟩ :=
      second w₂ a b (grows.trans grows₂) related w₂ m₁ m₁' (.refl w₂) alike₁ ended
    exact ⟨o, w₃, settled.bind settled', grows₂.trans grows₃, alike₃⟩
  | error e alike₁ => exact ⟨_, w₂, settled.bind_error, grows₂, .error e alike₁⟩

/-- Variables mean values that are alike in scopes that stand for each other. -/
protected lemma lookup (near : w.near c c') (name : Token) :
    Matches P w c c' Value.Alike (lookup name) fun _ => lookup name := by
  intro w₁ m m' g alike _
  refine ⟨_, w₁, .const m', .refl w₁, ?_⟩
  have found := P.lookup name.lexeme alike.store (g.near near)
  rw [← alike.current, ← alike.current'] at found
  simp only [Eval.lookup]
  generalize m.store.get? m.current name.lexeme = left at found
  generalize m'.store.get? m'.current name.lexeme = right at found
  cases found with
  | some related => exact .ok related alike
  | none => exact .error (.mk name (.undefinedVariable name.lexeme)) alike

/-- Names may be declared at once in scopes that have the same bindings. -/
protected lemma define {v v' : Value} (same : w.same c c') (name : Token) (h : v.Alike w v') :
    Matches P w c c' (fun _ _ _ => True) (define name v) fun _ => define name v' := by
  rintro w₁ ⟨store, current, printed, readings, serial⟩
    ⟨store', current', printed', readings', serial'⟩ g ⟨stores, rfl, rfl, lines, same₁, same₂⟩ _
  refine ⟨_, w₁, .const _, .refl w₁, .ok trivial ⟨?_, rfl, rfl, lines, same₁, same₂⟩⟩
  exact P.define name.lexeme stores (g.same same) (h.grow g)

/-- Assignments change, or fail to find, variables of the same name. -/
protected lemma assign {v v' : Value} (near : w.near c c') (name : Token) (h : v.Alike w v') :
    Matches P w c c' (fun _ _ _ => True) (assign name v) fun _ => assign name v' := by
  rintro w₁ ⟨store, current, printed, readings, serial⟩
    ⟨store', current', printed', readings', serial'⟩ g ⟨stores, rfl, rfl, lines, same₁, same₂⟩ _
  refine ⟨_, w₁, .const _, .refl w₁, ?_⟩
  obtain ⟨stores', found⟩ := P.assign name.lexeme stores (g.near near) (h.grow g)
  simp only [Eval.assign, ← found]
  cases (store.assign current name.lexeme v).2 with
  | true => exact .ok trivial ⟨stores', rfl, rfl, lines, same₁, same₂⟩
  | false =>
    exact .error (.mk name (.undefinedVariable name.lexeme)) ⟨stores', rfl, rfl, lines, same₁, same₂⟩

/-- To print values that are alike matches. -/
protected lemma print {v v' : Value} (h : v.Alike w v') :
    Matches P w c c' (fun _ _ _ => True) (print v) fun _ => print v' := by
  rintro w₁ ⟨store, current, printed, readings, serial⟩
    ⟨store', current', printed', readings', serial'⟩ g ⟨stores, rfl, rfl, lines, same₁, same₂⟩ _
  refine ⟨_, w₁, .const _, .refl w₁, .ok trivial ⟨stores, rfl, rfl, ?_, same₁, same₂⟩⟩
  rw [Array.toList_push, Array.toList_push]
  exact List.rel_append lines (.cons (h.grow g) .nil)

/-- Readings of one clock match. -/
protected lemma readClock (clock : Clock) :
    Matches P w c c' (fun _ a b => a = b) (readClock clock) fun _ => readClock clock := by
  intro w₁ m m' _ alike _
  refine ⟨_, w₁, .const _, .refl w₁, .ok (congrArg clock alike.readings) ?_⟩
  exact { alike with readings := congrArg (· + 1) alike.readings }

/-- Functions that are made in scopes that stand for each other are alike if their bodies are. -/
protected lemma closure {body body' : List Stmt} (near : w.near c c') (name : Token)
    (parameters : List Token) (h : Stmt.AllAlike body body') :
    Matches P w c c' Value.Alike (closure name parameters body)
      fun _ => closure name parameters body' := by
  intro w₁ m m' g alike _
  refine ⟨_, w₁, .const _, .refl w₁, .ok ?_ { alike with serial := congrArg (· + 1) alike.serial }⟩
  rw [alike.current, alike.current', alike.serial]
  exact .function name parameters _ h (g.near near)

/-- The current scopes are those in which the machines stand. -/
protected lemma current :
    Matches P w c c' (fun _ a b => a = c ∧ b = c') current fun _ => Eval.current := by
  intro w₁ m m' _ alike _
  exact ⟨_, w₁, .const _, .refl w₁, .ok ⟨alike.current, alike.current'⟩ alike⟩

/-- Operations with results that are alike match at the same token. -/
protected lemma atToken {r r' : Except RuntimeCause Value} (token : Token)
    (h : Value.ResultAlike w r r') :
    Matches P w c c' Value.Alike (atToken token r) fun _ => atToken token r' := by
  cases h with
  | ok v => exact .pure fun w' g => v.grow g
  | error cause => exact .fail token cause

/-- New scopes inside scopes that stand for each other, with the same names bound there. -/
protected lemma inScope {p p' : ScopeId} {bs bs' : List (String × Value)} (near : w.near p p')
    (bindings : BindingsAlike w bs bs')
    (inner : ∀ w' d d', w.Grows w' → w'.same d d' → Matches P w' d d' R x y) :
    Matches P w c c' R (inScope p bs x) fun k => inScope p' bs' (y k) := by
  intro w₁ m m' g alike ended
  obtain ⟨w₂, g₂, same, stores⟩ := P.child alike.store (g.near near)
  have grown := g.trans g₂
  have bindings₂ : BindingsAlike w₂ bs bs' := bindings.imp fun _ _ h => ⟨h.1, h.2.grow grown⟩
  have inside : (opened p bs m).Alike P w₂ _ _ (opened p' bs' m') :=
    ⟨defineAll_alike stores same bindings₂, rfl, rfl, Value.Alike.grow_all g₂ alike.printed,
      alike.readings, alike.serial⟩
  rw [inScope_apply] at ended ⊢
  obtain ⟨o, w₃, settled, g₃, alike₃⟩ :=
    inner w₂ _ _ grown same w₂ _ _ (.refl w₂) inside (mt restored_eq_exhausted.mpr ended)
  refine ⟨_, w₃, settled.inScope, g₂.trans g₃, ?_⟩
  rw [alike.current, alike.current']
  exact restored_alike alike₃

/-- A new scope inside the current one on the left only. -/
lemma inScope_left (near : w.near c c')
    (inner : ∀ w' d, w.Grows w' → w'.near d c' → Matches P w' d c' R x y) :
    Matches P w c c' R (current >>= fun scope => inScope scope [] x) y := by
  intro w₁ m m' g alike ended
  obtain ⟨w₂, g₂, near₂, stores⟩ := P.childLeft alike.store (g.near near)
  have inside : (opened c [] m).Alike P w₂ _ c' m' :=
    ⟨stores, rfl, alike.current', Value.Alike.grow_all g₂ alike.printed, alike.readings,
      alike.serial⟩
  have left : (current >>= fun scope => Eval.inScope scope [] x) m =
      restored c (x (opened c [] m)) := by
    rw [← alike.current]
    rfl
  rw [left] at ended ⊢
  obtain ⟨o, w₃, settled, g₃, alike₃⟩ :=
    inner w₂ _ (g.trans g₂) near₂ w₂ _ _ (.refl w₂) inside (mt restored_eq_exhausted.mpr ended)
  refine ⟨o, w₃, settled, g₂.trans g₃, ?_⟩
  generalize x (opened c [] m) = result at alike₃ ⊢
  cases alike₃ with
  | ok related alike₃ => exact .ok related { alike₃ with current := rfl }
  | error e alike₃ => exact .error e { alike₃ with current := rfl }

/-- A new scope inside the current one on the right only. -/
lemma inScope_right (near : w.near c c')
    (inner : ∀ w' d', w.Grows w' → w'.near c d' → Matches P w' c d' R x y) :
    Matches P w c c' R x fun k => current >>= fun scope => inScope scope [] (y k) := by
  intro w₁ m m' g alike ended
  obtain ⟨w₂, g₂, near₂, stores⟩ := P.childRight alike.store (g.near near)
  have inside : m.Alike P w₂ c _ (opened c' [] m') :=
    ⟨stores, alike.current, rfl, Value.Alike.grow_all g₂ alike.printed, alike.readings,
      alike.serial⟩
  obtain ⟨o, w₃, settled, g₃, alike₃⟩ :=
    inner w₂ _ (g.trans g₂) near₂ w₂ _ _ (.refl w₂) inside ended
  have entered : Settles (fun _ => current) m' (.ok c' m') := by
    rw [← alike.current']
    exact .const m'
  refine ⟨_, w₃, entered.bind settled.inScope, g₂.trans g₃, ?_⟩
  rw [alike.current']
  generalize x m = result at alike₃ ⊢
  cases alike₃ with
  | ok related alike₃ => exact .ok related { alike₃ with current' := rfl }
  | error e alike₃ => exact .error e { alike₃ with current' := rfl }

end Matches

end Lox.Eval
