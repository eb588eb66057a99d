import Lox.Machine.Evaluate
import Mathlib.Data.Option.Basic
import Mathlib.Logic.Function.Defs

/-!
# Relabelling

A relabelling renames variables and replaces the tokens of programs: those that stand for names by
tokens with the new names, all others as it likes. It acts on everything in which tokens or names
occur: trees, values, stores, machines and outcomes.
-/

namespace Lox

/-- A renaming of variables with a replacement of tokens that goes along with it. -/
structure Relabelling where
  rename : String → String
  /-- What becomes of a token that stands for a name. -/
  name : Token → Token
  /-- What becomes of any other token. -/
  mark : Token → Token
  injective : Function.Injective rename
  lexeme (token : Token) : (name token).lexeme = rename token.lexeme

section

variable (r : Relabelling)

mutual

/-- The relabelled expression. -/
def Expr.relabel : Expr → Expr
  | .literal atom => .literal atom
  | .group inner => .group inner.relabel
  | .ident name => .ident (r.name name)
  | .assign name value => .assign (r.name name) value.relabel
  | .unary op token operand => .unary op (r.mark token) operand.relabel
  | .binary op token left right => .binary op (r.mark token) left.relabel right.relabel
  | .logical op token left right => .logical op (r.mark token) left.relabel right.relabel
  | .call callee paren arguments =>
    .call callee.relabel (r.mark paren) (Expr.relabelAll arguments)

/-- The relabelled expressions. -/
def Expr.relabelAll : List Expr → List Expr
  | [] => []
  | e :: rest => e.relabel :: Expr.relabelAll rest

end

mutual

/-- The relabelled statement. -/
def Stmt.relabel : Stmt → Stmt
  | .var name initializer => .var (r.name name) (initializer.map (Expr.relabel r))
  | .function name parameters body =>
    .function (r.name name) (parameters.map r.name) (Stmt.relabelAll body)
  | .expression e => .expression (e.relabel r)
  | .print e => .print (e.relabel r)
  | .block body => .block (Stmt.relabelAll body)
  | .ifThen condition thenBranch => .ifThen (condition.relabel r) thenBranch.relabel
  | .ifElse condition thenBranch elseBranch =>
    .ifElse (condition.relabel r) thenBranch.relabel elseBranch.relabel
  | .loop condition step body =>
    .loop (condition.relabel r) (step.map (Expr.relabel r)) body.relabel
  | .ret keyword value => .ret (r.mark keyword) (value.map (Expr.relabel r))

/-- The relabelled statements. -/
def Stmt.relabelAll : List Stmt → List Stmt
  | [] => []
  | s :: rest => s.relabel :: Stmt.relabelAll rest

end

/-- The relabelled parts of a loop. -/
def ForClauses.relabel (clauses : ForClauses) : ForClauses :=
  ⟨clauses.initializer.map (Stmt.relabel r), clauses.condition.map (Expr.relabel r),
    clauses.increment.map (Expr.relabel r)⟩

/-- The relabelled value. -/
def Value.relabel : Value → Value
  | .function f =>
    .function ⟨r.name f.name, f.parameters.map r.name, Stmt.relabelAll r f.body, f.scope, f.serial⟩
  | value => value

/-- The relabelled bindings. -/
def Bindings.relabel (bindings : Bindings) : Bindings :=
  bindings.map fun (name, value) => (r.rename name, value.relabel r)

/-- The relabelled scope. -/
def Scope.relabel (scope : Scope) : Scope :=
  ⟨scope.bindings.relabel r, scope.parent⟩

/-- The relabelled store. -/
def Store.relabel (s : Store) : Store :=
  ⟨s.scopes.map (Scope.relabel r)⟩

/-- The relabelled machine. -/
def Machine.relabel (m : Machine) : Machine :=
  ⟨m.store.relabel r, m.current, m.printed.map (Value.relabel r), m.readings, m.serial⟩

/-- The relabelled cause of an error. -/
def RuntimeCause.relabel : RuntimeCause → RuntimeCause
  | .notNumber operand => .notNumber (operand.relabel r)
  | .notNumbers left right => .notNumbers (left.relabel r) (right.relabel r)
  | .notAddable left right => .notAddable (left.relabel r) (right.relabel r)
  | .undefinedVariable name => .undefinedVariable (r.rename name)
  | .notCallable callee => .notCallable (callee.relabel r)
  | .wrongArity actual expected => .wrongArity actual expected

/-- The relabelled error. Only undefined variables are reported at names. -/
def RuntimeError.relabel : RuntimeError → RuntimeError
  | ⟨.undefinedVariable name, token⟩ => ⟨.undefinedVariable (r.rename name), r.name token⟩
  | ⟨cause, token⟩ => ⟨cause.relabel r, r.mark token⟩

/-- The relabelled result of a statement. -/
def Completion.relabel : Completion → Completion
  | .normal => .normal
  | .returned value => .returned (value.relabel r)

/-- The relabelled outcome of a computation, given what becomes of its result. -/
def Outcome.relabel {α : Type} (result : α → α) : Outcome α → Outcome α
  | .ok value m => .ok (result value) (m.relabel r)
  | .error e m => .error (e.relabel r) (m.relabel r)
  | .exhausted => .exhausted

end

section

variable (r : Relabelling)

/-- Expressions are relabelled one by one. -/
lemma Expr.relabelAll_eq (es : List Expr) : Expr.relabelAll r es = es.map (Expr.relabel r) := by
  induction es with
  | nil => rfl
  | cons e rest ih => exact congrArg (e.relabel r :: ·) ih

/-- Literals have no labels. -/
lemma Atom.relabel_value (atom : Atom) : atom.value.relabel r = atom.value := by
  cases atom <;> rfl

variable (v u : Value)

/-- What counts as true does so when it is relabelled. -/
lemma Value.truthy_relabel : (v.relabel r).truthy = v.truthy := by
  cases v <;> rfl

/-- A relabelled left operand settles what the operand settles. -/
lemma Value.settles_relabel (op : LogicalOp) : (v.relabel r).settles op = v.settles op := by
  cases op <;> simp only [settles, truthy_relabel]

/-- Relabelling keeps values equal and different. -/
lemma Value.equals_relabel : (v.relabel r).equals (u.relabel r) = v.equals u := by
  cases v <;> cases u <;> rfl

end

/-- An operation on relabelled values has a relabelled result. Its errors are not about names. -/
inductive Value.Relabelled (r : Relabelling) :
    Except RuntimeCause Value → Except RuntimeCause Value → Prop where
  | ok (v : Value) :
    Relabelled r (.ok v) (.ok (v.relabel r))
  | error {cause : RuntimeCause} :
    (∀ token, RuntimeError.relabel r ⟨cause, token⟩ = ⟨cause.relabel r, r.mark token⟩) →
    Relabelled r (.error cause) (.error (cause.relabel r))

section

variable (r : Relabelling) (v u : Value)

/-- Prefix operators commute with relabelling. -/
lemma Value.unary_relabel (op : PrefixOp) :
    Value.Relabelled r (v.unary op) ((v.relabel r).unary op) := by
  cases op with
  | not =>
    rw [Value.unary, Value.unary, Value.truthy_relabel]
    exact .ok (.boolean _)
  | negate =>
    cases v with
    | number x => exact .ok (.number _)
    | string s => exact .error fun _ => rfl
    | nil => exact .error fun _ => rfl
    | boolean b => exact .error fun _ => rfl
    | native builtin serial => exact .error fun _ => rfl
    | function f => exact .error fun _ => rfl

/-- Operations on numbers commute with relabelling. -/
lemma Value.numeric_relabel {f : Float → Float → Value}
    (plain : ∀ x y, (f x y).relabel r = f x y) :
    Value.Relabelled r (v.numeric f u) ((v.relabel r).numeric f (u.relabel r)) := by
  have failure : Value.Relabelled r (.error (.notNumbers v u))
      (.error (.notNumbers (v.relabel r) (u.relabel r))) :=
    .error fun _ => rfl
  cases v with
  | number x =>
    cases u with
    | number y =>
      have result : Value.Relabelled r _ _ := .ok (f x y)
      rw [plain x y] at result
      exact result
    | _ => exact failure
  | _ => exact failure

/-- Addition commutes with relabelling. -/
lemma Value.add_relabel : Value.Relabelled r (v.add u) ((v.relabel r).add (u.relabel r)) := by
  have failure : Value.Relabelled r (.error (.notAddable v u))
      (.error (.notAddable (v.relabel r) (u.relabel r))) :=
    .error fun _ => rfl
  cases v with
  | number x =>
    cases u with
    | number y => exact .ok (.number _)
    | _ => exact failure
  | string s =>
    cases u with
    | string t => exact .ok (.string _)
    | _ => exact failure
  | _ => exact failure

/-- Binary operators commute with relabelling. -/
lemma Value.binary_relabel (op : BinaryOp) :
    Value.Relabelled r (v.binary op u) ((v.relabel r).binary op (u.relabel r)) := by
  cases op with
  | multiply | subtract => exact v.numeric_relabel r u fun _ _ => rfl
  | divide =>
    refine v.numeric_relabel r u fun x y => ?_
    rw [Value.quotient]
    split
    · rfl
    · rfl
  | add => exact v.add_relabel r u
  | less | lessEqual | greater | greaterEqual => exact v.numeric_relabel r u fun _ _ => rfl
  | equal | notEqual =>
    rw [Value.binary, Value.binary, Value.equals_relabel]
    exact .ok (.boolean _)

end

end Lox
