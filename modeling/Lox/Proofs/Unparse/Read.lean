import Lox.Proofs.Unparse.Genuine

/-!
# Reading written programs

A genuine tree is read back from the tokens with which it is written, with no objections but to the
number of arguments and parameters. As in the grammar, an expression of a level is left behind where
nothing goes on with it that holds it as tightly, and a pending statement where no `else` follows.
-/

namespace Lox

/-- The objection is to an argument or a parameter too many. -/
def SyntaxError.Excess (e : SyntaxError) : Prop :=
  e.cause = .tooManyArguments ∨ e.cause = .tooManyParameters

namespace Parsed

variable {α β : Type} {value : α} {value' : β} {rest rest' : List Token}

/-- The result is done with a value, and nothing is wrong but too many arguments or parameters. -/
def Yields (p : Parsed α) (value : α) (rest : List Token) : Prop :=
  ∃ errors, p = done value rest errors ∧ ∀ e ∈ errors, e.Excess

/-- A rule that is done without errors yields its value. -/
lemma Yields.of_eq {p : Parsed α} (h : p = done value rest []) : p.Yields value rest :=
  ⟨[], h, List.forall_mem_nil _⟩

/-- Earlier errors about too many arguments or parameters change nothing in what is yielded. -/
lemma Yields.after {p : Parsed α} {earlier : List SyntaxError} (h : p.Yields value rest)
    (before : ∀ e ∈ earlier, e.Excess) : (p.after earlier).Yields value rest := by
  obtain ⟨errors, rfl, excess⟩ := h
  exact ⟨earlier ++ errors, rfl, List.forall_mem_append.mpr ⟨before, excess⟩⟩

/-- A rule behind one that yields a value yields what it does with that value. -/
lemma Yields.bind {p : Parsed α} {next : α → List Token → Parsed β} (h : p.Yields value rest)
    (behind : (next value rest).Yields value' rest') : (p.bind next).Yields value' rest' := by
  obtain ⟨errors, rfl, excess⟩ := h
  exact behind.after excess

/-- What is made of a value that is yielded is yielded. -/
lemma Yields.map {p : Parsed α} (h : p.Yields value rest) (f : α → β) :
    (p.map f).Yields (f value) rest :=
  h.bind (.of_eq rfl)

end Parsed

open Parse Grammar

/-- Errors at the limit are about too many arguments or parameters. -/
lemma Parse.limit_excess {cause : SyntaxCause}
    (excess : cause = .tooManyArguments ∨ cause = .tooManyParameters) (count : Nat)
    (token : Token) :
    ∀ e ∈ if argumentLimit ≤ count then [SyntaxError.mk cause token] else [], e.Excess := by
  split
  · exact List.forall_mem_singleton.mpr excess
  · exact List.forall_mem_nil _

/-- An expected token in front is yielded. -/
lemma Parse.expect_yields (eof : Token) {place : Expectation} {token : Token}
    (fits : token.kind = place.kind) (rest : List Token) :
    (expect eof place (token :: rest)).result.Yields token rest :=
  .of_eq (expect_done eof fits rest)

/-- A written expression begins with an operand. -/
lemma Expr.Genuine.first_mem {level : Level} {e : Expr} (h : e.Genuine level) (mint : Mint) :
    ∃ token us, e.unparse mint = token :: us ∧ token.kind ∈ operandKinds := by
  induction h with
  | literal atom =>
    refine ⟨_, _, rfl, mem_operandKinds ?_⟩
    rw [(mint.literal_atom atom).leading]
    exact nofun
  | ident isName | assign isName _ _ => exact ⟨_, _, rfl, by rw [isName]; decide⟩
  | group _ _ => exact ⟨_, _, rfl, by rw [mint.kind_mark]; decide⟩
  | unary isOp _ _ =>
    refine ⟨_, _, rfl, mem_operandKinds ?_⟩
    rw [isOp.leading]
    exact nofun
  | call _ _ _ ih _ | binary _ _ _ ih _ | logical _ _ _ ih _ =>
    obtain ⟨token, us, eq, mem⟩ := ih
    exact ⟨token, _, by rw [Expr.unparse, eq, List.cons_append], mem⟩
  | tighter _ ih => exact ih

section

variable (eof : Token) (mint : Mint)

/-- A written expression of a level is read, and the parser goes on behind it. -/
def ReadsBack (level : Level) (e : Expr) : Prop :=
  ∀ power rest, power ≤ level.power → Stops (level.power + 1) rest → ∀ value left,
    (continued eof power e rest).result.Yields value left →
    (expression eof power (e.unparse mint ++ rest)).result.Yields value left

end

namespace ReadsBack

variable {eof : Token} {mint : Mint} {level : Level} {e f : Expr}

/-- An expression goes on behind its operand. -/
lemma of_operand {power : Nat} {tokens rest left : List Token} {value : Expr}
    (read : (operand eof tokens).result.Yields e rest)
    (behind : (continued eof power e rest).result.Yields value left) :
    (expression eof power tokens).result.Yields value left := by
  rw [result_expression]
  exact read.bind behind

/-- An expression is read up to where nothing goes on with it. -/
lemma whole (h : ReadsBack eof mint level e) {power : Nat} {rest : List Token}
    (le : power ≤ level.power) (stops : Stops power rest) :
    (expression eof power (e.unparse mint ++ rest)).result.Yields e rest :=
  h power rest le (stops.weaken (Nat.le_succ_of_le le)) e rest
    (.of_eq (continued_of_stops eof stops e))

/-- A literal is read back. -/
lemma literal (atom : Atom) : ReadsBack eof mint .primary (.literal atom) := by
  intro power rest _ _ value left behind
  refine of_operand (.of_eq ?_) behind
  rw [Expr.unparse, List.singleton_append, result_operand_cons, (mint.literal_atom atom).leading]

/-- A name is read back. -/
lemma ident {name : Token} (isName : name.kind = .identifier) :
    ReadsBack eof mint .primary (.ident name) := by
  intro power rest _ _ value left behind
  refine of_operand (.of_eq ?_) behind
  rw [Expr.unparse, List.singleton_append, result_operand_cons, leading_name isName]

/-- An expression between parentheses is read back. -/
lemma group (inner : ReadsBack eof mint .assignment e) :
    ReadsBack eof mint .primary (.group e) := by
  intro power rest _ _ value left behind
  have stops : Stops 0 (mint.mark .rightParen :: rest) :=
    .of_none (by rw [mint.kind_mark]; rfl) 0 rest
  refine of_operand ?_ behind
  rw [Expr.unparse, List.cons_append, List.append_assoc, List.singleton_append,
    result_operand_cons, leading_group (mint.kind_mark _)]
  refine (inner.whole (Nat.zero_le _) stops).bind ?_
  exact (expect_yields eof (mint.kind_mark _) rest).map _

/-- An expression with an operator in front is read back. -/
lemma unary {token : Token} {op : PrefixOp} (isOp : Unary token.kind op)
    (inner : ReadsBack eof mint .unary e) : ReadsBack eof mint .unary (.unary op token e) := by
  intro power rest _ stops value left behind
  have same : op.power = Level.unary.power := by cases op <;> rfl
  refine of_operand ?_ behind
  rw [Expr.unparse, List.cons_append, result_operand_cons, isOp.leading]
  dsimp only
  rw [same]
  exact (inner.whole (Nat.le_refl _) stops.unary).map _

/-- Written arguments are read one behind the other. -/
lemma arguments {es : List Expr} (all : ∀ e ∈ es, ReadsBack eof mint .assignment e)
    (some : es ≠ []) (count : Nat) {stop : Token} (closing : stop.kind = .rightParen)
    (rest : List Token) :
    (arguments eof count (Expr.unparseAll mint es ++ stop :: rest)).result.Yields es
      (stop :: rest) := by
  induction es generalizing count with
  | nil => exact absurd rfl some
  | cons e others ih =>
    obtain ⟨first, more⟩ := List.forall_mem_cons.mp all
    rw [result_arguments]
    refine Parsed.Yields.after ?_ (limit_excess (.inl rfl) count _)
    cases others with
    | nil =>
      have stops : Stops 0 (stop :: rest) := .of_none (by rw [closing]; rfl) 0 rest
      have notComma : stop.kind ≠ .comma := by rw [closing]; decide
      refine (first.whole (Nat.zero_le _) stops).bind ?_
      dsimp only
      rw [if_neg notComma]
      exact .of_eq rfl
    | cons f others =>
      have stops : Stops 0 (mint.mark .comma ::
          (Expr.unparseAll mint (f :: others) ++ stop :: rest)) :=
        .of_none (by rw [mint.kind_mark]; rfl) 0 _
      rw [Expr.unparseAll, List.append_assoc, List.cons_append]
      refine (first.whole (Nat.zero_le _) stops).bind ?_
      dsimp only
      rw [if_pos (mint.kind_mark _)]
      exact (ih more (List.cons_ne_nil f others) (count + 1)).map _

/-- The parentheses of a call are found behind its callee. -/
lemma call {paren : Token} {es : List Expr} (callee : ReadsBack eof mint .call e)
    (closing : paren.kind = .rightParen) (genuine : ∀ f ∈ es, f.Genuine .assignment)
    (all : ∀ f ∈ es, ReadsBack eof mint .assignment f) :
    ReadsBack eof mint .call (.call e paren es) := by
  intro power rest le _ value left behind
  have found : Continuation.ofKind? (mint.mark .leftParen).kind = some .call := by
    rw [mint.kind_mark]
    rfl
  rw [Expr.unparse, List.append_assoc, List.cons_append, List.append_assoc, List.singleton_append]
  refine callee power _ le (.of_some found (by decide) _) value left ?_
  rw [continued_of_le eof found le]
  refine Parsed.Yields.bind ?_ behind
  have close : (expect eof .argumentsEnd (paren :: rest)).result.Yields paren rest :=
    expect_yields eof closing rest
  cases es with
  | nil =>
    rw [result_extended_call, Expr.unparseAll, List.nil_append, front_cons, if_pos closing]
    exact close.map _
  | cons f others =>
    have notClosing : (front eof (Expr.unparseAll mint (f :: others) ++ paren :: rest)).kind ≠
        .rightParen := by
      obtain ⟨token, us, eq, mem⟩ := (genuine f List.mem_cons_self).first_mem mint
      have ne : token.kind ≠ .rightParen := ne_of_mem mem (by decide)
      cases others with
      | nil =>
        rw [Expr.unparseAll, eq]
        exact ne
      | cons g others =>
        rw [Expr.unparseAll, eq]
        exact ne
    rw [result_extended_call, if_neg notClosing]
    exact (arguments all (List.cons_ne_nil f others) 0 closing rest).bind (close.map _)

/-- An operator of a level with its operands. -/
lemma operator {token : Token} {c : Continuation} {build : Expr → Expr → Expr}
    (written : ∀ e f : Expr, (build e f).unparse mint = e.unparse mint ++ token :: f.unparse mint)
    (found : Continuation.ofKind? token.kind = some c) (same : c.leftPower = level.power)
    (lt : level.power < level.tighter.power)
    (extended : ∀ left tokens, (extended eof left token c tokens).result =
      (expression eof (c.leftPower + 1) tokens).result.map (build left))
    (left : ReadsBack eof mint level e) (right : ReadsBack eof mint level.tighter f) :
    ReadsBack eof mint level (build e f) := by
  intro power rest le stops value left' behind
  have front : Stops (level.power + 1) (token :: (f.unparse mint ++ rest)) :=
    .of_some found (by rw [same]; exact Nat.lt_succ_self _) _
  rw [written, List.append_assoc, List.cons_append]
  refine left power _ le front value left' ?_
  rw [continued_of_le eof found (same ▸ le), extended, same]
  exact ((right.whole lt stops).map (build e)).bind behind

/-- An assignment is read back. -/
lemma assign {name : Token} (isName : name.kind = .identifier)
    (inner : ReadsBack eof mint .assignment e) :
    ReadsBack eof mint .assignment (.assign name e) := by
  intro power rest le stops value left behind
  have found : Continuation.ofKind? (mint.mark .equal).kind = some .assign := by
    rw [mint.kind_mark]
    rfl
  have front : Stops 19 (mint.mark .equal :: (e.unparse mint ++ rest)) :=
    .of_some found (by decide) _
  have target : ReadsBack eof mint .primary (.ident name) := ident isName
  refine target power _ (Nat.le_trans le (by decide)) front value left ?_
  rw [continued_of_le eof found (Nat.le_trans le (by decide)), result_extended_assign]
  refine Parsed.Yields.bind ?_ behind
  exact (inner.whole (Nat.le_refl _) stops.assignment).bind (.of_eq rfl)

end ReadsBack

/-- What the grammar builds as an expression is read back. -/
lemma Expr.Genuine.readsBack {level : Level} {e : Expr} (h : e.Genuine level) (eof : Token)
    (mint : Mint) : ReadsBack eof mint level e := by
  induction h with
  | literal atom => exact .literal atom
  | ident isName => exact .ident isName
  | group _ inner => exact .group inner
  | call _ closing genuine callee all => exact .call callee closing genuine all
  | unary isOp _ inner => exact .unary isOp inner
  | binary _ isOp _ left right =>
    exact .operator (fun _ _ => rfl) isOp.continuation.1 isOp.continuation.2 isOp.power_lt
      (fun left tokens => result_extended_binary eof left _ _ tokens) left right
  | logical _ isOp _ left right =>
    exact .operator (fun _ _ => rfl) isOp.continuation.1 isOp.continuation.2 isOp.power_lt
      (fun left tokens => result_extended_logical eof left _ _ tokens) left right
  | assign isName _ inner => exact .assign isName inner
  | @tighter level e _ inner =>
    intro power rest le stops
    have grows := level.power_le_tighter
    exact inner power rest (Nat.le_trans le grows) (stops.weaken (Nat.succ_le_succ grows))

end Lox
