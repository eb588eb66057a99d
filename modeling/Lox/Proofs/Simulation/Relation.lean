import Lox.Machine.Evaluate
import Lox.Proofs.Syntax.Shape
import Mathlib.Data.List.Forall2
import Mathlib.Data.Option.Basic

/-!
# Machines that run alike

When two machines run in step although their stores differ, a `World` says which scopes of the one
stand for which scopes of the other. Values, errors and machines are alike in a world: functions
carry scopes that stand for each other and bodies that are alike, and everything else is equal. A
`Pairing` says what has to hold of two stores in a world; what the operations on stores do to it is
all that the simulation in `Lox.Proofs.Simulation.Evaluate` asks for.

Statements are alike if they differ in the places of loop steps only: a step behind the rounds of a
loop, or at the end of the loop's body in a block of its own.
-/

namespace Lox

mutual

/-- Statements that differ in the places of loop steps only. -/
inductive Stmt.Alike : Stmt → Stmt → Prop where
  | var (name : Token) (initializer : Option Expr) :
    Alike (.var name initializer) (.var name initializer)
  | function (name : Token) (parameters : List Token) {body body' : List Stmt} :
    Stmt.AllAlike body body' →
    Alike (.function name parameters body) (.function name parameters body')
  | expression (e : Expr) :
    Alike (.expression e) (.expression e)
  | print (e : Expr) :
    Alike (.print e) (.print e)
  | block {body body' : List Stmt} :
    Stmt.AllAlike body body' →
    Alike (.block body) (.block body')
  | ifThen (condition : Expr) {s s' : Stmt} :
    Alike s s' → s.Plain →
    Alike (.ifThen condition s) (.ifThen condition s')
  | ifElse (condition : Expr) {s s' t t' : Stmt} :
    Alike s s' → s.Plain → Alike t t' → t.Plain →
    Alike (.ifElse condition s t) (.ifElse condition s' t')
  | loop (condition : Expr) (step : Option Expr) {s s' : Stmt} :
    Alike s s' → s.Plain →
    Alike (.loop condition step s) (.loop condition step s')
  | stepInside (condition step : Expr) {s s' : Stmt} :
    Alike s s' → s.Plain →
    Alike (.loop condition (some step) s) (.loop condition none (.block [s', .expression step]))
  | stepOutside (condition step : Expr) {s s' : Stmt} :
    Alike s s' → s.Plain →
    Alike (.loop condition none (.block [s, .expression step])) (.loop condition (some step) s')
  | ret (keyword : Token) (value : Option Expr) :
    Alike (.ret keyword value) (.ret keyword value)

/-- Statements that are alike one by one. -/
inductive Stmt.AllAlike : List Stmt → List Stmt → Prop where
  | nil :
    AllAlike [] []
  | cons {s s' : Stmt} {rest rest' : List Stmt} :
    Stmt.Alike s s' → AllAlike rest rest' →
    AllAlike (s :: rest) (s' :: rest')

end

/-- Which scopes of one store stand for which scopes of another. -/
structure World where
  /-- Names mean the same in the two scopes. -/
  near : ScopeId → ScopeId → Prop
  /-- Moreover, names may be declared in the two scopes at once. -/
  same : ScopeId → ScopeId → Prop
  near_of_same {c c' : ScopeId} : same c c' → near c c'

/-- More scopes stand for each other than before. -/
structure World.Grows (w w' : World) : Prop where
  near {c c' : ScopeId} : w.near c c' → w'.near c c'
  same {c c' : ScopeId} : w.same c c' → w'.same c c'

/-- The scopes that stand for each other do so still. -/
lemma World.Grows.refl (w : World) : w.Grows w :=
  ⟨id, id⟩

/-- Scopes stand for each other still if they did so in the meantime. -/
lemma World.Grows.trans {u v w : World} (first : u.Grows v) (second : v.Grows w) : u.Grows w :=
  ⟨fun h => second.near (first.near h), fun h => second.same (first.same h)⟩

/-- Values that behave alike: equal ones, and functions that are the same but for their scopes,
which stand for each other, and the places of loop steps in their bodies. -/
inductive Value.Alike (w : World) : Value → Value → Prop where
  | number (x : Float) :
    Alike w (.number x) (.number x)
  | string (s : String) :
    Alike w (.string s) (.string s)
  | nil :
    Alike w .nil .nil
  | boolean (b : Bool) :
    Alike w (.boolean b) (.boolean b)
  | native (builtin : Builtin) (serial : Nat) :
    Alike w (.native builtin serial) (.native builtin serial)
  | function (name : Token) (parameters : List Token) {body body' : List Stmt}
    {scope scope' : ScopeId} (serial : Nat) :
    Stmt.AllAlike body body' → w.near scope scope' →
    Alike w (.function ⟨name, parameters, body, scope, serial⟩)
      (.function ⟨name, parameters, body', scope', serial⟩)

/-- Errors of the same kind on values that are alike. -/
inductive RuntimeCause.Alike (w : World) : RuntimeCause → RuntimeCause → Prop where
  | notNumber {v v' : Value} :
    v.Alike w v' → Alike w (.notNumber v) (.notNumber v')
  | notNumbers {u u' v v' : Value} :
    u.Alike w u' → v.Alike w v' → Alike w (.notNumbers u v) (.notNumbers u' v')
  | notAddable {u u' v v' : Value} :
    u.Alike w u' → v.Alike w v' → Alike w (.notAddable u v) (.notAddable u' v')
  | undefinedVariable (name : String) :
    Alike w (.undefinedVariable name) (.undefinedVariable name)
  | notCallable {v v' : Value} :
    v.Alike w v' → Alike w (.notCallable v) (.notCallable v')
  | wrongArity (actual expected : Nat) :
    Alike w (.wrongArity actual expected) (.wrongArity actual expected)

/-- Errors of the same kind at the same token. -/
inductive RuntimeError.Alike (w : World) : RuntimeError → RuntimeError → Prop where
  | mk {cause cause' : RuntimeCause} (token : Token) :
    cause.Alike w cause' → Alike w ⟨cause, token⟩ ⟨cause', token⟩

/-- Statements that end alike. -/
inductive Completion.Alike (w : World) : Completion → Completion → Prop where
  | normal :
    Alike w .normal .normal
  | returned {v v' : Value} :
    v.Alike w v' → Alike w (.returned v) (.returned v')

/-- Results of operations on values: values that are alike, or errors of the same kind. -/
inductive Value.ResultAlike (w : World) :
    Except RuntimeCause Value → Except RuntimeCause Value → Prop where
  | ok {v v' : Value} :
    v.Alike w v' → ResultAlike w (.ok v) (.ok v')
  | error {cause cause' : RuntimeCause} :
    cause.Alike w cause' → ResultAlike w (.error cause) (.error cause')

/-- What has to hold of two stores in a world, and that it is kept by all that happens to stores.
Nothing is declared in a scope that is opened on one side only, so that names mean there what they
mean around it. -/
structure Pairing where
  stores : World → Store → Store → Prop
  lookup {w : World} {s s' : Store} {c c' : ScopeId} (name : String) :
    stores w s s' → w.near c c' → Option.Rel (Value.Alike w) (s.get? c name) (s'.get? c' name)
  define {w : World} {s s' : Store} {c c' : ScopeId} {v v' : Value} (name : String) :
    stores w s s' → w.same c c' → v.Alike w v' →
    stores w (s.define c name v) (s'.define c' name v')
  assign {w : World} {s s' : Store} {c c' : ScopeId} {v v' : Value} (name : String) :
    stores w s s' → w.near c c' → v.Alike w v' →
    stores w (s.assign c name v).1 (s'.assign c' name v').1 ∧
      (s.assign c name v).2 = (s'.assign c' name v').2
  child {w : World} {s s' : Store} {c c' : ScopeId} :
    stores w s s' → w.near c c' →
    ∃ w', w.Grows w' ∧ w'.same (s.child c).1 (s'.child c').1 ∧
      stores w' (s.child c).2 (s'.child c').2
  childLeft {w : World} {s s' : Store} {c c' : ScopeId} :
    stores w s s' → w.near c c' →
    ∃ w', w.Grows w' ∧ w'.near (s.child c).1 c' ∧ stores w' (s.child c).2 s'
  childRight {w : World} {s s' : Store} {c c' : ScopeId} :
    stores w s s' → w.near c c' →
    ∃ w', w.Grows w' ∧ w'.near c (s'.child c').1 ∧ stores w' s (s'.child c').2

/-- Machines that are alike and stand in the scopes `c` and `c'`. -/
structure Machine.Alike (P : Pairing) (w : World) (c c' : ScopeId) (m m' : Machine) : Prop where
  store : P.stores w m.store m'.store
  current : m.current = c
  current' : m'.current = c'
  printed : List.Forall₂ (Value.Alike w) m.printed.toList m'.printed.toList
  readings : m.readings = m'.readings
  serial : m.serial = m'.serial

/-- Computations that end alike, in machines that are alike. -/
inductive Outcome.Alike {α β : Type} (P : Pairing) (w : World) (c c' : ScopeId)
    (R : α → β → Prop) : Outcome α → Outcome β → Prop where
  | ok {a : α} {b : β} {m m' : Machine} :
    R a b → m.Alike P w c c' m' → Alike P w c c' R (.ok a m) (.ok b m')
  | error {e e' : RuntimeError} {m m' : Machine} :
    e.Alike w e' → m.Alike P w c c' m' → Alike P w c c' R (.error e m) (.error e' m')

section

variable {w w' : World} (g : w.Grows w')

include g

/-- Values that are alike stay so. -/
lemma Value.Alike.grow {v v' : Value} (h : v.Alike w v') : v.Alike w' v' := by
  cases h with
  | number x => exact .number x
  | string s => exact .string s
  | nil => exact .nil
  | boolean b => exact .boolean b
  | native builtin serial => exact .native builtin serial
  | function name parameters serial body near =>
    exact .function name parameters serial body (g.near near)

/-- Values stay alike while more scopes stand for each other. -/
lemma Value.Alike.grow_all {vs vs' : List Value} (h : List.Forall₂ (Value.Alike w) vs vs') :
    List.Forall₂ (Value.Alike w') vs vs' :=
  h.imp fun _ _ => Value.Alike.grow g

/-- Causes stay alike while more scopes stand for each other. -/
lemma RuntimeCause.Alike.grow {cause cause' : RuntimeCause} (h : cause.Alike w cause') :
    cause.Alike w' cause' := by
  cases h with
  | notNumber v => exact .notNumber (v.grow g)
  | notNumbers u v => exact .notNumbers (u.grow g) (v.grow g)
  | notAddable u v => exact .notAddable (u.grow g) (v.grow g)
  | undefinedVariable name => exact .undefinedVariable name
  | notCallable v => exact .notCallable (v.grow g)
  | wrongArity actual expected => exact .wrongArity actual expected

end

section

variable {w : World} {v v' : Value} (h : v.Alike w v')

include h

/-- Values that are alike are of one type. -/
lemma Value.Alike.typeName_eq : v.typeName = v'.typeName := by
  cases h <;> rfl

/-- Values that are alike are printed alike. -/
lemma Value.Alike.text_eq : v.text = v'.text := by
  cases h <;> rfl

/-- Values that are alike count as true or do not. -/
lemma Value.Alike.truthy_eq : v.truthy = v'.truthy := by
  cases h <;> rfl

/-- Values that are alike settle logical operators alike. -/
lemma Value.Alike.settles_eq (op : LogicalOp) : v.settles op = v'.settles op := by
  cases op <;> simp only [Value.settles, h.truthy_eq]

/-- Values that are alike are equal to the same values. -/
lemma Value.Alike.equals_eq {u u' : Value} (k : u.Alike w u') : v.equals u = v'.equals u' := by
  cases h <;> cases k <;> simp only [Value.equals]

end

section

variable {w : World} {v v' u u' : Value} (h : v.Alike w v') (k : u.Alike w u')

include h

/-- An operator in front has results that are alike on values that are. -/
lemma Value.Alike.unary (op : PrefixOp) : Value.ResultAlike w (v.unary op) (v'.unary op) := by
  cases op with
  | not =>
    simp only [Value.unary, h.truthy_eq]
    exact .ok (.boolean _)
  | negate =>
    cases h with
    | number x => exact .ok (.number _)
    | string s => exact .error (.notNumber (.string s))
    | nil => exact .error (.notNumber .nil)
    | boolean b => exact .error (.notNumber (.boolean b))
    | native builtin serial => exact .error (.notNumber (.native builtin serial))
    | function name parameters serial body near =>
      exact .error (.notNumber (.function name parameters serial body near))

include k

/-- Operations on numbers have results that are alike on values that are. -/
lemma Value.Alike.numeric {f : Float → Float → Value} (self : ∀ x y, (f x y).Alike w (f x y)) :
    Value.ResultAlike w (v.numeric f u) (v'.numeric f u') := by
  have failure := RuntimeCause.Alike.notNumbers h k
  cases h with
  | number x =>
    cases k with
    | number y => exact .ok (self x y)
    | _ => exact .error failure
  | _ => exact .error failure

/-- Sums of values that are alike are so, or fail alike. -/
lemma Value.Alike.add : Value.ResultAlike w (v.add u) (v'.add u') := by
  have failure := RuntimeCause.Alike.notAddable h k
  cases h with
  | number x =>
    cases k with
    | number y => exact .ok (.number _)
    | _ => exact .error failure
  | string s =>
    cases k with
    | string t => exact .ok (.string _)
    | _ => exact .error failure
  | _ => exact .error failure

/-- Binary operators have results that are alike on values that are. -/
lemma Value.Alike.binary (op : BinaryOp) :
    Value.ResultAlike w (v.binary op u) (v'.binary op u') := by
  cases op with
  | multiply | subtract => exact h.numeric k fun _ _ => .number _
  | divide =>
    refine h.numeric k fun x y => ?_
    rw [Value.quotient]
    split
    · exact .nil
    · exact .number _
  | add => exact h.add k
  | less | lessEqual | greater | greaterEqual => exact h.numeric k fun _ _ => .boolean _
  | equal | notEqual =>
    rw [Value.binary, Value.binary, h.equals_eq k]
    exact .ok (.boolean _)

end

section

variable {w : World} {cause cause' : RuntimeCause} (h : cause.Alike w cause')

include h

/-- Causes that are alike have one code. -/
lemma RuntimeCause.Alike.code_eq : cause.code = cause'.code := by
  cases h <;> rfl

/-- Causes that are alike have one message. -/
lemma RuntimeCause.Alike.message_eq : cause.message = cause'.message := by
  cases h <;> rfl

/-- Causes that are alike have one label. -/
lemma RuntimeCause.Alike.label_eq : cause.label = cause'.label := by
  cases h with
  | notNumber v => exact congrArg ("operand is a " ++ ·) v.typeName_eq
  | notNumbers u v | notAddable u v =>
    exact congrArg₂ ("operands are a " ++ · ++ " and a " ++ ·) u.typeName_eq v.typeName_eq
  | undefinedVariable name => rfl
  | notCallable v => exact congrArg ("callee is a " ++ ·) v.typeName_eq
  | wrongArity actual expected => rfl

end

/-- Errors that are alike are at the same token. -/
lemma RuntimeError.Alike.token_eq {w : World} {e e' : RuntimeError} (h : e.Alike w e') :
    e.token = e'.token := by
  obtain ⟨token, cause⟩ := h
  rfl

/-- Errors that are alike read the same. -/
lemma RuntimeError.Alike.diagnostic_eq {w : World} {e e' : RuntimeError} (h : e.Alike w e') :
    e.diagnostic = e'.diagnostic := by
  obtain ⟨token, cause⟩ := h
  rw [diagnostic, diagnostic, text, text, cause.code_eq, cause.message_eq, cause.label_eq]

/-- Machines that are alike have printed the same lines. -/
lemma Machine.Alike.lines_eq {P : Pairing} {w : World} {c c' : ScopeId} {m m' : Machine}
    (h : m.Alike P w c c' m') : m.lines = m'.lines := by
  simp only [lines, linesFrom, List.drop_zero]
  have printed := h.printed
  generalize m.printed.toList = values at printed
  generalize m'.printed.toList = values' at printed
  induction printed with
  | nil => rfl
  | cons v _ ih => rw [List.map_cons, List.map_cons, v.text_eq, ih]

end Lox
