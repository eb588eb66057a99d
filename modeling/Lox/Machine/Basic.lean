import Lox.Store

/-!
# The machine

What a running program changes: the store, the scope it is in, the values it has printed, and how
often it has read the clock and made a function. A computation may also run out of fuel, which is
neither a value nor an error of the program.
-/

namespace Lox

/-- The answers of the host clock: seconds since its epoch at each reading. -/
abbrev Clock := Nat → Float

/-- The state of a running program. -/
structure Machine where
  store : Store
  /-- The scope in which names are looked up. -/
  current : ScopeId
  /-- The values printed, each on a line of its own. -/
  printed : Array Value
  /-- How often the clock has been read. -/
  readings : Nat
  /-- The serial number of the next function. -/
  serial : Nat

/-- A machine that has done nothing yet. -/
def Machine.initial : Machine :=
  ⟨.initial, Store.globals, #[], 0, 0⟩

/-- The printed lines without the first `n`. -/
def Machine.linesFrom (n : Nat) (m : Machine) : List String :=
  (m.printed.toList.drop n).map Value.text

/-- The printed lines. -/
def Machine.lines (m : Machine) : List String :=
  m.linesFrom 0

/-- How a computation ends. -/
inductive Outcome (α : Type) where
  | ok (value : α) (machine : Machine)
  | error (e : RuntimeError) (machine : Machine)
  /-- The computation was cut off. -/
  | exhausted

/-- A computation on a machine. -/
def Eval (α : Type) : Type :=
  Machine → Outcome α

namespace Eval

variable {α β : Type}

/-- Does nothing. -/
@[always_inline, inline]
protected def pure (value : α) : Eval α :=
  fun m => .ok value m

/-- Goes on with the value of a computation that succeeds. -/
@[always_inline, inline]
protected def bind (x : Eval α) (next : α → Eval β) : Eval β :=
  fun m =>
    match x m with
    | .ok value m => next value m
    | .error e m => .error e m
    | .exhausted => .exhausted

/-- Computations follow one another until the first error. -/
instance : Monad Eval where
  pure := Eval.pure
  bind := Eval.bind

/-- A machine stays as it is while a value is given back. -/
theorem pure_apply (value : α) (m : Machine) : (pure value : Eval α) m = .ok value m :=
  rfl

/-- The second of two computations starts where the first one has succeeded. -/
theorem bind_apply (x : Eval α) (next : α → Eval β) (m : Machine) :
    (x >>= next) m =
      match x m with
      | .ok value m => next value m
      | .error e m => .error e m
      | .exhausted => .exhausted :=
  rfl

/-- Stops for want of fuel. -/
def exhausted : Eval α :=
  fun _ => .exhausted

/-- Stops with an error. -/
def fail (cause : RuntimeCause) (token : Token) : Eval α :=
  fun m => .error ⟨cause, token⟩ m

/-- Takes the result of an operation, whose errors belong to a token. -/
def atToken (token : Token) : Except RuntimeCause α → Eval α
  | .ok value => pure value
  | .error cause => fail cause token

/-- The value of a variable. -/
def lookup (name : Token) : Eval Value :=
  fun m =>
    match m.store.get? m.current name.lexeme with
    | some value => .ok value m
    | none => .error (Store.undefined name) m

/-- Binds a name in the current scope. -/
def define (name : Token) (value : Value) : Eval Unit :=
  fun ⟨store, current, printed, readings, serial⟩ =>
    .ok () ⟨store.define current name.lexeme value, current, printed, readings, serial⟩

/-- Changes the value of a variable. -/
def assign (name : Token) (value : Value) : Eval Unit :=
  fun ⟨store, current, printed, readings, serial⟩ =>
    let (store, found) := store.assign current name.lexeme value
    let m := ⟨store, current, printed, readings, serial⟩
    if found then .ok () m else .error (Store.undefined name) m

/-- Prints a value. -/
def print (value : Value) : Eval Unit :=
  fun ⟨store, current, printed, readings, serial⟩ =>
    .ok () ⟨store, current, printed.push value, readings, serial⟩

/-- Reads the clock. -/
def readClock (clock : Clock) : Eval Float :=
  fun m => .ok (clock m.readings) { m with readings := m.readings + 1 }

/-- Makes a function that carries the current scope. -/
def closure (name : Token) (parameters : List Token) (body : List Stmt) : Eval Value :=
  fun m =>
    .ok (.function ⟨name, parameters, body, m.current, m.serial⟩) { m with serial := m.serial + 1 }

/-- The current scope. -/
def current : Eval ScopeId :=
  fun m => .ok m.current m

/-- Runs a computation in a new scope inside `parent`, with some names bound there. However it ends,
the scope that was current before is current again. -/
def inScope (parent : ScopeId) (bindings : List (String × Value)) (x : Eval α) : Eval α :=
  fun ⟨store, current, printed, readings, serial⟩ =>
    let (scope, store) := store.child parent
    match x ⟨store.defineAll scope bindings, scope, printed, readings, serial⟩ with
    | .ok value m => .ok value { m with current }
    | .error e m => .error e { m with current }
    | .exhausted => .exhausted

end Eval

end Lox
