import Lox.Proofs.Grammar.Levels

/-!
# Expressions of the grammar

The parser of expressions derives what the grammar derives, with the same tree. An expression of a
level, read with at most the power of the level, leaves the parser behind the expression
(`Expression.complete`); and an expression that is read without errors is one of a level with at
least the power with which it was read, and what follows does not go on with it (`expression_sound`).
-/

namespace Lox

open Parse

namespace Grammar

/-- An expression begins with a token that begins an operand. -/
lemma Expression.first {level : Level} {ts : List Token} {e : Expr} (h : Expression level ts e) :
    ∃ token us, ts = token :: us ∧ Leading.ofToken? token ≠ none := by
  match h with
  | .literal atom => exact ⟨_, _, rfl, by rw [atom.leading]; exact nofun⟩
  | .name kind => exact ⟨_, _, rfl, by rw [leading_name kind]; exact nofun⟩
  | .group kind _ _ => exact ⟨_, _, rfl, by rw [leading_group kind]; exact nofun⟩
  | .unary op _ => exact ⟨_, _, rfl, by rw [op.leading]; exact nofun⟩
  | .assign kind _ _ => exact ⟨_, _, rfl, by rw [leading_name kind]; exact nofun⟩
  | .tighter inner => exact inner.first
  | .callNone callee _ _ =>
    obtain ⟨token, us, rfl, leading⟩ := callee.first
    exact ⟨token, _, rfl, leading⟩
  | .callSome callee _ _ _ _ =>
    obtain ⟨token, us, rfl, leading⟩ := callee.first
    exact ⟨token, _, rfl, leading⟩
  | .binary left _ _ =>
    obtain ⟨token, us, rfl, leading⟩ := left.first
    exact ⟨token, _, rfl, leading⟩
  | .logical left _ _ =>
    obtain ⟨token, us, rfl, leading⟩ := left.first
    exact ⟨token, _, rfl, leading⟩

/-- Arguments begin with a token that begins an operand. -/
lemma Arguments.first {ts : List Token} {es : List Expr} (h : Arguments ts es) :
    ∃ token us, ts = token :: us ∧ Leading.ofToken? token ≠ none := by
  cases h with
  | last e => exact e.first
  | more e _ _ =>
    obtain ⟨token, us, rfl, leading⟩ := e.first
    exact ⟨token, _, rfl, leading⟩

/-- An operand is not a closing parenthesis. -/
lemma ne_rightParen_of_leading {token : Token} (leading : Leading.ofToken? token ≠ none) :
    token.kind ≠ .rightParen := by
  intro kind
  apply leading
  rw [Leading.ofToken?, kind]
  rfl

section

variable (eof : Token)

/-- The parser reads the tokens as an expression of a level, and goes on behind it. -/
def Reads (level : Level) (ts : List Token) (e : Expr) : Prop :=
  ∀ power rest, power ≤ level.power → Stops (level.power + 1) rest →
    (expression eof power (ts ++ rest)).result = (continued eof power e rest).result

/-- The parser reads the tokens as arguments. -/
def ReadsAll (ts : List Token) (es : List Expr) : Prop :=
  ∀ count rest, count + es.length ≤ 255 → Stops 0 rest →
    (∀ token others, rest = token :: others → token.kind ≠ .comma) →
    (arguments eof count (ts ++ rest)).result = .done es rest []

end

namespace Reads

variable {eof : Token} {level : Level} {ts us : List Token} {e f : Expr}

/-- An expression goes on behind its operand. -/
lemma of_operand {power : Nat} {tokens rest : List Token}
    (read : (operand eof tokens).result = .done e rest []) :
    (expression eof power tokens).result = (continued eof power e rest).result := by
  rw [result_expression, read, Parsed.bind_done]

/-- What is read as an expression is read up to where nothing goes on with it. -/
lemma whole (h : Reads eof level ts e) {power : Nat} {rest : List Token} (le : power ≤ level.power)
    (stops : Stops power rest) :
    (expression eof power (ts ++ rest)).result = .done e rest [] := by
  rw [h power rest le (stops.weaken (Nat.le_succ_of_le le)), continued_of_stops eof stops]

/-- A literal is read as a primary expression. -/
lemma literal {token : Token} {atom : Atom} (h : Literal token atom) :
    Reads eof .primary [token] (.literal atom) := by
  intro power rest _ _
  apply of_operand
  rw [List.singleton_append, result_operand_cons, h.leading]

/-- A name is read as a primary expression. -/
lemma name {token : Token} (kind : token.kind = .identifier) :
    Reads eof .primary [token] (.ident token) := by
  intro power rest _ _
  apply of_operand
  rw [List.singleton_append, result_operand_cons, leading_name kind]

/-- An expression between parentheses is read as a primary expression. -/
lemma group {start stop : Token} (opening : start.kind = .leftParen)
    (inner : Reads eof .assignment ts e) (closing : stop.kind = .rightParen) :
    Reads eof .primary (start :: (ts ++ [stop])) (.group e) := by
  intro power rest _ _
  have stops : Stops 0 (stop :: rest) := .of_none (by rw [closing]; rfl) 0 rest
  have read := inner.whole (Nat.zero_le _) stops
  have closed : (expect eof .groupEnd (stop :: rest)).result = .done stop rest [] :=
    expect_done eof closing rest
  apply of_operand
  rw [List.cons_append, List.append_assoc, List.singleton_append, result_operand_cons,
    leading_group opening]
  dsimp only
  rw [read, Parsed.bind_done, closed, Parsed.map_done]

/-- An operator in front of an expression that is read is read with it. -/
lemma unary {token : Token} {op : PrefixOp} (isOp : Unary token.kind op)
    (inner : Reads eof .unary ts e) : Reads eof .unary (token :: ts) (.unary op token e) := by
  intro power rest _ stops
  have same : op.power = Level.unary.power := by cases op <;> rfl
  have read := inner.whole (Nat.le_refl _) stops.unary
  apply of_operand
  rw [List.cons_append, result_operand_cons, isOp.leading]
  dsimp only
  rw [same, read, Parsed.map_done]

/-- A call without arguments is read behind its callee. -/
lemma callNone {start stop : Token} (callee : Reads eof .call ts e)
    (opening : start.kind = .leftParen) (closing : stop.kind = .rightParen) :
    Reads eof .call (ts ++ [start, stop]) (.call e stop []) := by
  intro power rest le stops
  have found : Continuation.ofKind? start.kind = some .call := by rw [opening]; rfl
  have front : Stops 18 (start :: stop :: rest) := .of_some found (by decide) _
  have closed : (expect eof .argumentsEnd (stop :: rest)).result = .done stop rest [] :=
    expect_done eof closing rest
  rw [List.append_assoc, List.cons_append, List.singleton_append, callee power _ le front,
    continued_of_le eof found le, result_extended_call, front_cons, if_pos closing, closed,
    Parsed.map_done, Parsed.bind_done]

/-- A call with arguments is read behind its callee if there are not too many of them. -/
lemma callSome {start stop : Token} {es : List Expr} (callee : Reads eof .call ts e)
    (opening : start.kind = .leftParen) (arguments : ReadsAll eof us es)
    (first : ∃ token vs, us = token :: vs ∧ Leading.ofToken? token ≠ none)
    (few : es.length ≤ 255) (closing : stop.kind = .rightParen) :
    Reads eof .call (ts ++ start :: (us ++ [stop])) (.call e stop es) := by
  intro power rest le stops
  have found : Continuation.ofKind? start.kind = some .call := by rw [opening]; rfl
  have front : Stops 18 (start :: (us ++ stop :: rest)) := .of_some found (by decide) _
  have closed : (expect eof .argumentsEnd (stop :: rest)).result = .done stop rest [] :=
    expect_done eof closing rest
  have read := arguments 0 (stop :: rest) (by omega) (.of_none (by rw [closing]; rfl) 0 rest) <| by
    rintro _ _ ⟨rfl, rfl⟩ comma
    exact nomatch closing.symm.trans comma
  have notClosing : (Parse.front eof (us ++ stop :: rest)).kind ≠ .rightParen := by
    obtain ⟨token, vs, rfl, leading⟩ := first
    exact ne_rightParen_of_leading leading
  rw [List.append_assoc, List.cons_append, List.append_assoc, List.singleton_append,
    callee power _ le front, continued_of_le eof found le, result_extended_call, if_neg notClosing,
    read, Parsed.bind_done, closed, Parsed.map_done, Parsed.bind_done]

/-- An operator of a level with its operands. -/
lemma operator {token : Token} {c : Continuation} {build : Expr → Expr → Expr}
    (found : Continuation.ofKind? token.kind = some c) (same : c.leftPower = level.power)
    (lt : level.power < level.tighter.power)
    (extended : ∀ left tokens, (extended eof left token c tokens).result =
      (expression eof (c.leftPower + 1) tokens).result.map (build left))
    (left : Reads eof level ts e) (right : Reads eof level.tighter us f) :
    Reads eof level (ts ++ token :: us) (build e f) := by
  intro power rest le stops
  have front : Stops (level.power + 1) (token :: (us ++ rest)) :=
    .of_some found (by rw [same]; exact Nat.lt_succ_self _) _
  have read := right.whole lt stops
  rw [List.append_assoc, List.cons_append, left power _ le front,
    continued_of_le eof found (same ▸ le), extended, same, read, Parsed.map_done, Parsed.bind_done]

/-- An assignment is read with the value behind it. -/
lemma assign {name token : Token} (isName : name.kind = .identifier) (isEqual : token.kind = .equal)
    (value : Reads eof .assignment ts e) :
    Reads eof .assignment (name :: token :: ts) (.assign name e) := by
  intro power rest le stops
  have found : Continuation.ofKind? token.kind = some .assign := by rw [isEqual]; rfl
  have front : Stops 19 (token :: (ts ++ rest)) := .of_some found (by decide) _
  have target : Reads eof .primary [name] (.ident name) := .name isName
  have read := value.whole (Nat.le_refl _) stops.assignment
  have operand := target power _ (Nat.le_trans le (by decide)) front
  rw [List.singleton_append] at operand
  rw [List.cons_append, List.cons_append, operand,
    continued_of_le eof found (Nat.le_trans le (by decide)), result_extended_assign]
  change ((expression eof Level.assignment.power (ts ++ rest)).result.bind _).bind _ = _
  rw [read, Parsed.bind_done, Parsed.bind_done]

/-- What is read as an expression of the next level. -/
lemma tighter (h : Reads eof level.tighter ts e) : Reads eof level ts e := by
  intro power rest le stops
  have grows := level.power_le_tighter
  exact h power rest (Nat.le_trans le grows) (stops.weaken (Nat.succ_le_succ grows))

/-- An expression alone is read as arguments. -/
lemma last (h : Reads eof .assignment ts e) : ReadsAll eof ts [e] := by
  intro count rest few stops noComma
  have limit : ¬ argumentLimit ≤ count := by
    rw [List.length_singleton] at few
    exact Nat.not_le.mpr few
  rw [result_arguments, h.whole (Nat.zero_le _) stops, Parsed.bind_done, if_neg limit,
    Parsed.after_nil]
  cases rest with
  | nil => rfl
  | cons token others =>
    dsimp only
    rw [if_neg (noComma token others rfl)]

/-- An expression, a comma and arguments are read as arguments. -/
lemma more {comma : Token} {es : List Expr} (h : Reads eof .assignment ts e)
    (isComma : comma.kind = .comma) (others : ReadsAll eof us es) :
    ReadsAll eof (ts ++ comma :: us) (e :: es) := by
  intro count rest few stops noComma
  rw [List.length_cons] at few
  have limit : ¬ argumentLimit ≤ count := by
    rw [argumentLimit]
    omega
  have front : Stops 0 (comma :: (us ++ rest)) := .of_none (by rw [isComma]; rfl) 0 _
  have read := others (count + 1) rest (by omega) stops noComma
  rw [List.append_assoc, List.cons_append, result_arguments, h.whole (Nat.zero_le _) front,
    Parsed.bind_done, if_neg limit, Parsed.after_nil]
  dsimp only
  rw [if_pos isComma, read, Parsed.map_done]

end Reads

mutual

/-- The parser reads what the grammar derives as an expression of a level, and goes on behind it. -/
lemma Expression.complete (eof : Token) {level : Level} {ts : List Token} {e : Expr}
    (h : Expression level ts e) : Reads eof level ts e :=
  match h with
  | .literal atom => .literal atom
  | .name kind => .name kind
  | .group start inner stop => .group start (inner.complete eof) stop
  | .callNone callee start stop => .callNone (callee.complete eof) start stop
  | .callSome callee start arguments few stop =>
    .callSome (callee.complete eof) start (arguments.complete eof) arguments.first few stop
  | .unary op inner => .unary op (inner.complete eof)
  | .binary left op right =>
    .operator op.continuation.1 op.continuation.2 op.power_lt
      (fun left tokens => result_extended_binary eof left _ _ tokens) (left.complete eof)
      (right.complete eof)
  | .logical left op right =>
    .operator op.continuation.1 op.continuation.2 op.power_lt
      (fun left tokens => result_extended_logical eof left _ _ tokens) (left.complete eof)
      (right.complete eof)
  | .assign name token value => .assign name token (value.complete eof)
  | .tighter inner => .tighter (inner.complete eof)

/-- The parser reads arguments of the grammar. -/
lemma Arguments.complete (eof : Token) {ts : List Token} {es : List Expr} (h : Arguments ts es) :
    ReadsAll eof ts es :=
  match h with
  | .last e => (e.complete eof).last
  | .more e comma others => (e.complete eof).more comma (others.complete eof)

end

/-- Some tokens in front of `rest` derive, behind those before them, an expression of a level with
some property. -/
def Derived (before tokens : List Token) (e : Expr) (rest : List Token) (property : Level → Prop) :
    Prop :=
  ∃ level ts, tokens = ts ++ rest ∧ Expression level (before ++ ts) e ∧ property level

/-- A name is derived from its own token only. -/
lemma Expression.ident {level : Level} {ts : List Token} {e : Expr} {name : Token} :
    Expression level ts e → e = .ident name → ts = [name] ∧ name.kind = .identifier
  | .name kind, eq => by
    cases eq
    exact ⟨rfl, kind⟩
  | .tighter inner, eq => inner.ident eq
  | .literal _, eq => nomatch eq
  | .group _ _ _, eq => nomatch eq
  | .callNone _ _ _, eq => nomatch eq
  | .callSome _ _ _ _ _, eq => nomatch eq
  | .unary _ _, eq => nomatch eq
  | .binary _ _ _, eq => nomatch eq
  | .logical _ _ _, eq => nomatch eq
  | .assign _ _ _, eq => nomatch eq

section

variable (eof : Token)

/-- What is read as an expression without errors is derived. The power of an assignment is that of
no operator to its left. -/
def ExpressionSound (power : Nat) (tokens : List Token) : Prop :=
  power ≤ 15 → power ≠ 2 → ∀ e rest, (expression eof power tokens).result = .done e rest [] →
    Derived [] tokens e rest fun level => power ≤ level.power ∧ Stops power rest

/-- What goes on with a derived operand without errors is derived. -/
def ContinuedSound (power : Nat) (left : Expr) (tokens : List Token) : Prop :=
  power ≤ 15 → power ≠ 2 → ∀ level ls, Expression level ls left → power ≤ level.power →
    Stops (level.power + 1) tokens → ∀ e rest,
    (continued eof power left tokens).result = .done e rest [] →
    Derived ls tokens e rest fun level => power ≤ level.power ∧ Stops power rest

/-- A derived operand is made part of a derived expression. -/
def ExtendedSound (left : Expr) (token : Token) (c : Continuation) (tokens : List Token) : Prop :=
  Continuation.ofKind? token.kind = some c → ∀ level ls, Expression level ls left →
    c.leftPower ≤ level.power → ∀ e rest,
    (extended eof left token c tokens).result = .done e rest [] →
    Derived (ls ++ [token]) tokens e rest fun level =>
      (∀ power, power ≤ c.leftPower → power ≠ 2 → power ≤ level.power) ∧
        Stops (level.power + 1) rest

/-- What is read as arguments without errors is derived. -/
def ArgumentsSound (count : Nat) (tokens : List Token) : Prop :=
  ∀ es rest, (arguments eof count tokens).result = .done es rest [] →
    ∃ ts, tokens = ts ++ rest ∧ Arguments ts es ∧ count + es.length ≤ 255

/-- What is read as an operand without errors is derived. -/
def OperandSound (tokens : List Token) : Prop :=
  ∀ e rest, (operand eof tokens).result = .done e rest [] →
    Derived [] tokens e rest fun level => 15 ≤ level.power ∧ Stops (level.power + 1) rest

end

section

variable {eof token : Token} {power count : Nat} {left : Expr} {tokens rest : List Token}

/-- An expression is an operand and what goes on with it. -/
lemma ExpressionSound.of_operand (operand : OperandSound eof tokens)
    (continued : ∀ left rest, rest.length < tokens.length → ContinuedSound eof power left rest) :
    ExpressionSound eof power tokens := by
  intro small ne e rest done
  rw [result_expression] at done
  obtain ⟨left, middle, read, behind⟩ := Parsed.bind_eq_done.mp done
  obtain ⟨level, ts, rfl, derived, tight, stops⟩ := operand left middle read
  have shorter := (Parse.operand eof (ts ++ middle)).within
  rw [read] at shorter
  obtain ⟨level', us, rfl, derived', property⟩ :=
    continued left middle shorter small ne level _ derived (Nat.le_trans small tight) stops e rest
      behind
  exact ⟨level', ts ++ us, (List.append_assoc _ _ _).symm, derived', property⟩

/-- Where nothing goes on, the operand is all. -/
lemma ContinuedSound.of_stops (stops : Stops power tokens) : ContinuedSound eof power left tokens := by
  intro _ _ level ls derived le _ e rest done
  rw [continued_of_stops eof stops] at done
  cases done
  refine ⟨level, [], rfl, ?_, le, stops⟩
  rw [List.append_nil]
  exact derived

/-- Where something goes on, the larger expression is the next operand. -/
lemma ContinuedSound.of_extended {c : Continuation}
    (found : Continuation.ofKind? token.kind = some c) (le : power ≤ c.leftPower)
    (extended : ExtendedSound eof left token c rest)
    (continued : ∀ left rest', rest'.length < rest.length → ContinuedSound eof power left rest') :
    ContinuedSound eof power left (token :: rest) := by
  intro small ne level ls derived _ stops e rest' done
  rw [continued_of_le eof found le] at done
  obtain ⟨left', middle, read, behind⟩ := Parsed.bind_eq_done.mp done
  -- What stands in front may be the left side: nothing that binds tighter goes on with it.
  obtain ⟨level', ts, rfl, derived', tight, stops'⟩ :=
    extended found level ls derived (Nat.le_of_lt_succ (stops c found)) left' middle read
  have shorter := (Parse.extended eof left token c (ts ++ middle)).within
  rw [read] at shorter
  obtain ⟨level'', us, rfl, derived'', property⟩ :=
    continued left' middle shorter small ne level' _ derived' (tight power le ne) stops' e rest'
      behind
  refine ⟨level'', token :: (ts ++ us), ?_, ?_, property⟩
  · rw [List.cons_append, List.append_assoc]
  · rw [List.append_assoc, List.append_assoc, List.singleton_append] at derived''
    exact derived''

/-- A call without arguments is derived. -/
lemma ExtendedSound.callNone (closing : (front eof tokens).kind = .rightParen) :
    ExtendedSound eof left token .call tokens := by
  intro found level ls derived le e rest done
  rw [result_extended_call, if_pos closing] at done
  obtain ⟨stop, expected, rfl⟩ := Parsed.map_eq_done.mp done
  obtain ⟨rfl, stopKind⟩ := expect_eq_done eof expected
  refine ⟨.call, [stop], rfl, ?_, fun power le _ => le, .call rest⟩
  rw [List.append_assoc]
  exact .callNone (derived.loosen le) (continuation_cases found) stopKind

/-- A call with arguments is derived if its arguments are. -/
lemma ExtendedSound.callSome (notClosing : (front eof tokens).kind ≠ .rightParen)
    (arguments : ArgumentsSound eof 0 tokens) : ExtendedSound eof left token .call tokens := by
  intro found level ls derived le e rest done
  rw [result_extended_call, if_neg notClosing] at done
  obtain ⟨es, middle, read, behind⟩ := Parsed.bind_eq_done.mp done
  obtain ⟨stop, expected, rfl⟩ := Parsed.map_eq_done.mp behind
  obtain ⟨rfl, stopKind⟩ := expect_eq_done eof expected
  obtain ⟨ts, rfl, all, few⟩ := arguments es _ read
  refine ⟨.call, ts ++ [stop], ?_, ?_, fun power le _ => le, .call rest⟩
  · rw [List.append_assoc, List.singleton_append]
  · rw [List.append_assoc, List.singleton_append]
    exact .callSome (derived.loosen le) (continuation_cases found) all (by omega) stopKind

/-- An operator of a level with its right operand. -/
lemma ExtendedSound.operator {c : Continuation} {level : Level} {build : Expr → Expr → Expr}
    (same : c.leftPower = level.power) (small : c.leftPower + 1 ≤ 15) (odd : c.leftPower ≠ 1)
    (extended : ∀ left tokens, (extended eof left token c tokens).result =
      (expression eof (c.leftPower + 1) tokens).result.map (build left))
    (rule : ∀ {ts us : List Token} {e f : Expr}, Expression level ts e →
      Expression level.tighter us f → Expression level (ts ++ token :: us) (build e f))
    (right : ExpressionSound eof (c.leftPower + 1) tokens) :
    ExtendedSound eof left token c tokens := by
  intro _ level' ls derived le e rest done
  rw [extended] at done
  obtain ⟨value, read, rfl⟩ := Parsed.map_eq_done.mp done
  obtain ⟨level'', ts, rfl, derived', tight, stops⟩ := right small (by omega) value rest read
  rw [same] at le tight stops
  refine ⟨level, ts, rfl, ?_, fun power le _ => same ▸ le, stops⟩
  rw [List.append_assoc, List.singleton_append]
  exact rule (derived.loosen le) (derived'.loosen (Level.power_tighter_le tight))

/-- An assignment, whose left side has to be a name. -/
lemma ExtendedSound.assign (right : ExpressionSound eof 1 tokens) :
    ExtendedSound eof left token .assign tokens := by
  intro found level ls derived le e rest done
  rw [result_extended_assign] at done
  obtain ⟨value, middle, read, behind⟩ := Parsed.bind_eq_done.mp done
  obtain ⟨level', ts, rfl, derived', tight, stops⟩ := right (by decide) (by decide) value middle read
  split at behind
  · cases behind
    obtain ⟨rfl, isName⟩ := derived.ident rfl
    refine ⟨.assignment, ts, rfl, ?_, ?_, stops.weaken (by decide)⟩
    · exact .assign isName (continuation_cases found) (derived'.loosen tight)
    -- An assignment binds its name with 2 and counts as 1 itself, but no rule asks for 2.
    · intro power le ne
      exact Nat.le_of_lt_succ (Nat.lt_of_le_of_ne le ne)
  · exact nomatch behind

/-- Arguments are derived if the first one is and, behind a comma, the others are. -/
lemma ArgumentsSound.of_expression (first : ExpressionSound eof 0 tokens)
    (others : ∀ (token : Token) (rest : List Token), (token :: rest).length < tokens.length →
      ArgumentsSound eof (count + 1) rest) :
    ArgumentsSound eof count tokens := by
  intro es rest done
  rw [result_arguments] at done
  obtain ⟨noErrors, clean⟩ := Parsed.after_eq_done.mp done
  obtain ⟨e, middle, read, behind⟩ := Parsed.bind_eq_done.mp clean
  obtain ⟨level, ts, rfl, derived, _⟩ := first (by decide) (by decide) e middle read
  have shorter := (expression eof 0 (ts ++ middle)).within
  rw [read] at shorter
  -- Beyond the limit, the parser goes on and leaves an error, which excludes a clean reading.
  have limit : count + 1 ≤ 255 := by
    by_contra exceeded
    have reached : argumentLimit ≤ count := Nat.le_of_lt_succ (Nat.lt_of_not_le exceeded)
    rw [if_pos reached] at noErrors
    exact nomatch noErrors
  have loose : Expression .assignment ts e := derived.loosen (by cases level <;> decide)
  cases middle with
  | nil =>
    cases behind
    exact ⟨ts, rfl, .last loose, limit⟩
  | cons comma following =>
    dsimp only at behind
    split at behind
    · rename_i isComma
      obtain ⟨es, read', rfl⟩ := Parsed.map_eq_done.mp behind
      obtain ⟨us, rfl, derived', few⟩ := others comma following shorter es rest read'
      refine ⟨ts ++ comma :: us, ?_, .more loose isComma derived', ?_⟩
      · rw [List.append_assoc, List.cons_append]
      · rw [List.length_cons]
        omega
    · cases behind
      exact ⟨ts, rfl, .last loose, limit⟩

/-- An operand that is one token. -/
lemma OperandSound.of_primary {e : Expr} (derived : Expression .primary [token] e)
    (only : (operand eof (token :: rest)).result = .done e rest []) :
    OperandSound eof (token :: rest) := by
  intro e' rest' done
  rw [only] at done
  cases done
  exact ⟨.primary, [token], rfl, derived, by decide, (Stops.call rest).weaken (by decide)⟩

/-- An operand with an operator in front is derived if the expression behind it is. -/
lemma OperandSound.unary {op : PrefixOp} (leading : Leading.ofToken? token = some (.unary op))
    (inner : ExpressionSound eof op.power rest) : OperandSound eof (token :: rest) := by
  intro e rest' done
  have same : op.power = 15 := by cases op <;> rfl
  rw [result_operand_cons, leading] at done
  obtain ⟨value, read, rfl⟩ := Parsed.map_eq_done.mp done
  rw [same] at inner read
  obtain ⟨level, ts, rfl, derived, tight, stops⟩ := inner (by decide) (by decide) value rest' read
  refine ⟨.unary, token :: ts, rfl, ?_, by decide, stops.weaken (by decide)⟩
  exact .unary (leading_cases leading) (derived.loosen tight)

/-- An operand between parentheses is derived if the expression inside is. -/
lemma OperandSound.group (leading : Leading.ofToken? token = some .group)
    (inner : ExpressionSound eof 0 rest) : OperandSound eof (token :: rest) := by
  intro e rest' done
  rw [result_operand_cons, leading] at done
  obtain ⟨value, middle, read, behind⟩ := Parsed.bind_eq_done.mp done
  obtain ⟨stop, expected, rfl⟩ := Parsed.map_eq_done.mp behind
  obtain ⟨rfl, stopKind⟩ := expect_eq_done eof expected
  obtain ⟨level, ts, rfl, derived, _⟩ := inner (by decide) (by decide) value _ read
  refine ⟨.primary, token :: (ts ++ [stop]), ?_, ?_, by decide, (Stops.call _).weaken (by decide)⟩
  · rw [List.cons_append, List.append_assoc, List.singleton_append]
  · exact .group (leading_cases leading) (derived.loosen (by cases level <;> decide)) stopKind

end

/-- What the parser of expressions reads without errors is derived by the grammar. -/
lemma sound (eof : Token) :
    (∀ power tokens, ExpressionSound eof power tokens) ∧
    (∀ power left tokens, ContinuedSound eof power left tokens) ∧
    (∀ left token c tokens, ExtendedSound eof left token c tokens) ∧
    (∀ count tokens, ArgumentsSound eof count tokens) ∧
    (∀ tokens, OperandSound eof tokens) := by
  -- The induction follows the recursion of the parser: one case per equation of the five rules.
  apply expression.mutual_induct eof
  case case1 =>
    intro power tokens operand continued
    exact .of_operand operand continued
  case case2 =>
    intro power left
    exact .of_stops trivial
  case case3 =>
    intro power left token rest none
    exact .of_stops (.of_none none power rest)
  case case4 =>
    intro power left token rest c found lt
    exact .of_stops (.of_some found lt rest)
  case case5 =>
    intro power left token rest c found le extended continued
    exact .of_extended found (Nat.le_of_not_lt le) extended continued
  case case6 =>
    intro left token tokens closing
    exact .callNone closing
  case case7 =>
    intro left token tokens notClosing arguments
    exact .callSome notClosing arguments
  case case8 =>
    intro left token tokens op right found
    obtain ⟨level, isOp⟩ := continuation_cases found
    have same := isOp.continuation.2
    exact ExtendedSound.operator same (by cases op <;> decide) (by cases op <;> decide)
      (fun left tokens => result_extended_binary eof left token op tokens)
      (fun left right => .binary left isOp right) right found
  case case9 =>
    intro left token tokens op right found
    obtain ⟨level, isOp⟩ := continuation_cases found
    have same := isOp.continuation.2
    exact ExtendedSound.operator same (by cases op <;> decide) (by cases op <;> decide)
      (fun left tokens => result_extended_logical eof left token op tokens)
      (fun left right => .logical left isOp right) right found
  case case10 =>
    intro left token tokens right
    exact .assign right
  case case11 =>
    intro count tokens first others
    exact .of_expression first others
  case case12 =>
    intro e rest done
    rw [result_operand_nil] at done
    exact nomatch done
  case case13 =>
    intro token rest none e rest' done
    rw [result_operand_cons, none] at done
    exact nomatch done
  case case14 =>
    intro token rest atom leading
    refine .of_primary (.literal (leading_cases leading)) ?_
    rw [result_operand_cons, leading]
  case case15 =>
    intro token rest leading
    refine .of_primary (.name (leading_cases leading)) ?_
    rw [result_operand_cons, leading]
  case case16 =>
    intro token rest op leading inner
    exact .unary leading inner
  case case17 =>
    intro token rest leading inner
    exact .group leading inner

/-- A whole expression is read where it ends before something that goes on with no expression. -/
lemma Expression.read (eof : Token) {ts rest : List Token} {e : Expr}
    (h : Expression .assignment ts e) (stops : Stops 0 rest) :
    (expression eof 0 (ts ++ rest)).result = .done e rest [] :=
  (h.complete eof).whole (Nat.zero_le _) stops

/-- A whole expression that is read without errors is derived. -/
lemma Expression.of_read {eof : Token} {tokens rest : List Token} {e : Expr}
    (read : (expression eof 0 tokens).result = .done e rest []) :
    ∃ ts, tokens = ts ++ rest ∧ Expression .assignment ts e := by
  obtain ⟨level, ts, eq, derived, _⟩ := (sound eof).1 0 tokens (by decide) (by decide) e rest read
  exact ⟨ts, eq, derived.loosen (by cases level <;> decide)⟩

end Grammar

end Lox
