import Lox.Syntax.Error

/-!
# Results of parsing

A rule of the grammar reads tokens from the front of a list. It is either done, with a value, or
failed, with an error that the statement around it cannot survive; both leave the tokens not yet
read and the errors reported on the way. `Bounded` results also carry the proof that a rule that is
done has left fewer tokens than a bound, which is why parsing ends.
-/

namespace Lox

/-- What a rule of the grammar makes of the tokens in front of it. -/
inductive Parsed (α : Type) where
  | done (value : α) (rest : List Token) (errors : List SyntaxError)
  | failed (error : SyntaxError) (rest : List Token) (errors : List SyntaxError)

namespace Parsed

variable {α β : Type}

/-- Puts earlier errors in front. -/
def after (earlier : List SyntaxError) : Parsed α → Parsed α
  | done value rest errors => done value rest (earlier ++ errors)
  | failed error rest errors => failed error rest (earlier ++ errors)

/-- Goes on behind a rule that is done. -/
def bind (p : Parsed α) (next : α → List Token → Parsed β) : Parsed β :=
  match p with
  | done value rest errors => (next value rest).after errors
  | failed error rest errors => failed error rest errors

/-- Changes the value of a rule that is done. -/
def map (p : Parsed α) (f : α → β) : Parsed β :=
  p.bind fun value rest => done (f value) rest []

/-- Done with fewer than `n` tokens left, or failed with at most `n`. -/
def Within (n : Nat) : Parsed α → Prop
  | done _ rest _ => rest.length < n
  | failed _ rest _ => rest.length ≤ n

/-- Earlier errors take no tokens. -/
theorem Within.after {n : Nat} {p : Parsed α} (h : p.Within n) (earlier : List SyntaxError) :
    (p.after earlier).Within n := by
  cases p <;> exact h

/-- What leaves fewer tokens than a number leaves fewer than a larger one. -/
theorem Within.widen {n m : Nat} {p : Parsed α} (h : p.Within n) (le : n ≤ m) : p.Within m := by
  cases p with
  | done => exact Nat.lt_of_lt_of_le h le
  | failed => exact Nat.le_trans h le

end Parsed

/-- A result that leaves fewer than `n` tokens, or at most `n` if it failed. -/
structure Bounded (α : Type) (n : Nat) where
  result : Parsed α
  within : result.Within n

namespace Bounded

variable {α β : Type} {n m : Nat}

/-- Done with a value. -/
def done (value : α) (rest : List Token) (h : rest.length < n) : Bounded α n :=
  ⟨.done value rest [], h⟩

/-- Failed with an error. -/
def failed (error : SyntaxError) (rest : List Token) (h : rest.length ≤ n) : Bounded α n :=
  ⟨.failed error rest [], h⟩

/-- Done with the token in front. -/
def one (value : α) (token : Token) (rest : List Token) : Bounded α (token :: rest).length :=
  done value rest (Nat.lt_succ_self _)

/-- The same result under a greater bound. -/
def widen (p : Bounded α n) (le : n ≤ m) : Bounded α m :=
  ⟨p.result, p.within.widen le⟩

/-- The result of a rule for the tokens behind another one. -/
def behind {rest : List Token} (token : Token) (p : Bounded α rest.length) :
    Bounded α (token :: rest).length :=
  p.widen (Nat.le_succ _)

/-- Reports errors before those of a result. -/
def after (p : Bounded α n) (earlier : List SyntaxError) : Bounded α n :=
  ⟨p.result.after earlier, p.within.after earlier⟩

/-- Goes on behind a rule that is done, with fewer tokens. -/
def andThen (p : Bounded α n) (next : α → (rest : List Token) → rest.length < n → Bounded β n) :
    Bounded β n :=
  match p with
  | ⟨.done value rest errors, h⟩ => (next value rest h).after errors
  | ⟨.failed error rest errors, h⟩ => ⟨.failed error rest errors, h⟩

/-- Goes on behind a rule that is done, with a rule for the tokens that it has left. -/
def andRead (p : Bounded α n)
    (next : α → (rest : List Token) → rest.length < n → Bounded β rest.length) : Bounded β n :=
  p.andThen fun value rest h => (next value rest h).widen (Nat.le_of_lt h)

/-- Changes the value of a rule that is done. -/
def map (p : Bounded α n) (f : α → β) : Bounded β n :=
  p.andThen fun value rest h => done (f value) rest h

/-- A larger bound does not change the result. -/
@[simp]
theorem result_widen (p : Bounded α n) (le : n ≤ m) : (p.widen le).result = p.result :=
  rfl

/-- A token in front of what is read does not change the result. -/
@[simp]
theorem result_behind {rest : List Token} (token : Token) (p : Bounded α rest.length) :
    (p.behind token).result = p.result :=
  rfl

/-- Earlier errors are those of the result. -/
@[simp]
theorem result_after (p : Bounded α n) (earlier : List SyntaxError) :
    (p.after earlier).result = p.result.after earlier :=
  rfl

/-- Bounds do not matter for results: going on is the same with and without them. -/
theorem result_andThen {p : Bounded α n}
    {next : α → (rest : List Token) → rest.length < n → Bounded β n}
    {plain : α → List Token → Parsed β}
    (agree : ∀ value rest h, (next value rest h).result = plain value rest) :
    (p.andThen next).result = p.result.bind plain := by
  obtain ⟨result, within⟩ := p
  cases result with
  | done value rest errors => exact congrArg (·.after errors) (agree value rest within)
  | failed error rest errors => rfl

/-- A reading behind another one has the result that the results have together. -/
theorem result_andRead {p : Bounded α n}
    {next : α → (rest : List Token) → rest.length < n → Bounded β rest.length}
    {plain : α → List Token → Parsed β}
    (agree : ∀ value rest h, (next value rest h).result = plain value rest) :
    (p.andRead next).result = p.result.bind plain :=
  result_andThen agree

/-- What is made of a value read is made of the result. -/
theorem result_map (p : Bounded α n) (f : α → β) : (p.map f).result = p.result.map f :=
  result_andThen fun _ _ _ => rfl

end Bounded

end Lox
