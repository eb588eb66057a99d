import Lox.Proofs.Syntax.Rules

/-!
# What the parser looks at

A rule looks at the tokens that it takes and at the one in front of what it leaves. Expressions take
no semicolon, so what becomes of the tokens in front of one does not depend on what is behind it.
A statement without braces, and without a `for`, takes its semicolon last: it is done with it, or it
has failed in front of it.
-/

namespace Lox

namespace Parse

section

variable {α β : Type} (stop : Token)

/-- The rule is done in front of `stop` at the latest, whatever is behind it. -/
def Pauses (rule : Token → List Token → Parsed α) (ts : List Token) : Prop :=
  ∃ value rest errors, rest <:+ ts ∧
    ∀ eof us, rule eof (ts ++ stop :: us) = .done value (rest ++ stop :: us) errors

/-- The rule has failed in front of `stop` at the latest, whatever is behind it. -/
def Fails (rule : Token → List Token → Parsed α) (ts : List Token) : Prop :=
  ∃ error rest errors, rest <:+ ts ∧
    ∀ eof us, rule eof (ts ++ stop :: us) = .failed error (rest ++ stop :: us) errors

/-- The rule is done with `stop` if nothing is behind it. -/
def Finishes (rule : Token → List Token → Parsed α) (ts : List Token) : Prop :=
  ∀ eof, ∃ value errors, rule eof (ts ++ [stop]) = .done value [] errors

/-- The rule does not take `stop`, and what it makes of the tokens before is settled by them. -/
def Stays (rule : Token → List Token → Parsed α) (ts : List Token) : Prop :=
  Pauses stop rule ts ∨ Fails stop rule ts

/-- The rule takes `stop` last or has failed before. -/
def Ends (rule : Token → List Token → Parsed α) (ts : List Token) : Prop :=
  Finishes stop rule ts ∨ Fails stop rule ts

end

variable {α β : Type} {stop : Token} {rule rule' : Token → List Token → Parsed α}
  {ts rest : List Token}

/-- A rule fails like the one that it hands the tokens on to. -/
lemma Fails.handOn (h : Fails stop rule rest) (left : rest <:+ ts)
    (same : ∀ eof us, rule' eof (ts ++ stop :: us) = rule eof (rest ++ stop :: us)) :
    Fails stop rule' ts := by
  obtain ⟨error, rest', errors, behind, failed⟩ := h
  refine ⟨error, rest', errors, behind.trans left, ?_⟩
  intro eof us
  rw [same, failed]

/-- A rule stays in front of the token like the one that it hands the tokens on to. -/
lemma Stays.handOn (h : Stays stop rule rest) (left : rest <:+ ts)
    (same : ∀ eof us, rule' eof (ts ++ stop :: us) = rule eof (rest ++ stop :: us)) :
    Stays stop rule' ts := by
  rcases h with ⟨value, rest', errors, behind, done⟩ | failed
  · refine .inl ⟨value, rest', errors, behind.trans left, ?_⟩
    intro eof us
    rw [same, done]
  · exact .inr (failed.handOn left same)

/-- A rule ends with the token like the one that it hands the tokens on to. -/
lemma Ends.handOn (h : Ends stop rule rest) (left : rest <:+ ts)
    (same : ∀ eof us, rule' eof (ts ++ stop :: us) = rule eof (rest ++ stop :: us)) :
    Ends stop rule' ts := by
  rcases h with done | failed
  · refine .inl fun eof => ?_
    obtain ⟨value, errors, done⟩ := done eof
    exact ⟨value, errors, (same eof []).trans done⟩
  · exact .inr (failed.handOn left same)

/-- A rule stays in front of the token also with earlier errors. -/
lemma Stays.after (h : Stays stop rule ts) (earlier : List SyntaxError) :
    Stays stop (fun eof tokens => (rule eof tokens).after earlier) ts := by
  rcases h with ⟨value, rest, errors, left, done⟩ | ⟨error, rest, errors, left, failed⟩
  · refine .inl ⟨value, rest, earlier ++ errors, left, ?_⟩
    intro eof us
    exact congrArg (Parsed.after earlier) (done eof us)
  · refine .inr ⟨error, rest, earlier ++ errors, left, ?_⟩
    intro eof us
    exact congrArg (Parsed.after earlier) (failed eof us)

section Bind

variable {next : α → Token → List Token → Parsed β}

/-- A rule that fails does not go on. -/
lemma Fails.bind (h : Fails stop rule ts) :
    Fails stop (fun eof tokens => (rule eof tokens).bind fun value rest => next value eof rest)
      ts := by
  obtain ⟨error, rest, errors, left, failed⟩ := h
  refine ⟨error, rest, errors, left, ?_⟩
  intro eof us
  show (rule eof (ts ++ stop :: us)).bind _ = _
  rw [failed]
  rfl

/-- What goes on behind a rule that is done fails with the errors of both. -/
lemma Pauses.bind_fails {value : α} {errors : List SyntaxError} (left : rest <:+ ts)
    (done : ∀ eof us, rule eof (ts ++ stop :: us) = .done value (rest ++ stop :: us) errors)
    (h : Fails stop (next value) rest) :
    Fails stop (fun eof tokens => (rule eof tokens).bind fun value rest => next value eof rest)
      ts := by
  obtain ⟨error, rest', errors', behind, failed⟩ := h
  refine ⟨error, rest', errors ++ errors', behind.trans left, ?_⟩
  intro eof us
  show (rule eof (ts ++ stop :: us)).bind _ = _
  rw [done, Parsed.bind, failed]
  rfl

/-- A rule that stays, with one behind it that fails before the token, fails before it. -/
lemma Stays.bind_fails (h : Stays stop rule ts)
    (behind : ∀ value rest, rest <:+ ts → Fails stop (next value) rest) :
    Fails stop (fun eof tokens => (rule eof tokens).bind fun value rest => next value eof rest)
      ts := by
  rcases h with ⟨value, rest, errors, left, done⟩ | failed
  · exact Pauses.bind_fails left done (behind value rest left)
  · exact failed.bind

variable (within : ∀ eof tokens, (rule eof tokens).Within tokens.length)

include within

/-- A rule that is done has taken a token. -/
lemma length_lt_of_done {value : α} {errors : List SyntaxError}
    (done : ∀ eof us, rule eof (ts ++ stop :: us) = .done value (rest ++ stop :: us) errors) :
    rest.length < ts.length := by
  have less := within stop (ts ++ [stop])
  rw [done] at less
  simpa [Parsed.Within] using less

/-- A rule that stays, with one behind it that stays, stays in front of the token. -/
lemma Stays.bind (h : Stays stop rule ts)
    (behind : ∀ value rest, rest <:+ ts → rest.length < ts.length → Stays stop (next value) rest) :
    Stays stop (fun eof tokens => (rule eof tokens).bind fun value rest => next value eof rest)
      ts := by
  rcases h with ⟨value, rest, errors, left, done⟩ | failed
  · rcases behind value rest left (length_lt_of_done within done) with
      ⟨value', rest', errors', left', done'⟩ | failed
    · refine .inl ⟨value', rest', errors ++ errors', left'.trans left, ?_⟩
      intro eof us
      show (rule eof (ts ++ stop :: us)).bind _ = _
      rw [done, Parsed.bind, done']
      rfl
    · exact .inr (Pauses.bind_fails left done failed)
  · exact .inr failed.bind

/-- A rule that stays, with one behind it that ends with the token, ends with it. -/
lemma Stays.bind_ends (h : Stays stop rule ts)
    (behind : ∀ value rest, rest <:+ ts → rest.length < ts.length → Ends stop (next value) rest) :
    Ends stop (fun eof tokens => (rule eof tokens).bind fun value rest => next value eof rest)
      ts := by
  rcases h with ⟨value, rest, errors, left, done⟩ | failed
  · rcases behind value rest left (length_lt_of_done within done) with finishes | failed
    · refine .inl fun eof => ?_
      obtain ⟨value', errors', done'⟩ := finishes eof
      refine ⟨value', errors ++ errors', ?_⟩
      show (rule eof (ts ++ [stop])).bind _ = _
      rw [done, Parsed.bind, done']
      rfl
    · exact .inr (Pauses.bind_fails left done failed)
  · exact .inr failed.bind

end Bind

/-- A rule stays in front of the token whatever is made of its value. -/
lemma Stays.map (h : Stays stop rule ts) (f : α → β) :
    Stays stop (fun eof tokens => (rule eof tokens).map f) ts := by
  rcases h with ⟨value, rest, errors, left, done⟩ | failed
  · refine .inl ⟨f value, rest, errors, left, ?_⟩
    intro eof us
    show (rule eof (ts ++ stop :: us)).map f = _
    rw [done]
    simp [Parsed.map, Parsed.bind, Parsed.after]
  · exact .inr failed.bind

/-- A rule fails before the token whatever would be made of its value. -/
lemma Fails.map (h : Fails stop rule ts) (f : α → β) :
    Fails stop (fun eof tokens => (rule eof tokens).map f) ts :=
  h.bind

/-- A rule that takes `stop` last goes on at the end. -/
lemma Ends.bind_last {next : α → Token → List Token → Parsed β} (h : Ends stop rule ts)
    (last : ∀ value eof, ∃ value', next value eof [] = .done value' [] []) :
    Ends stop (fun eof tokens => (rule eof tokens).bind fun value rest => next value eof rest)
      ts := by
  rcases h with finishes | failed
  · refine .inl fun eof => ?_
    obtain ⟨value, errors, done⟩ := finishes eof
    obtain ⟨value', done'⟩ := last value eof
    refine ⟨value', errors, ?_⟩
    show (rule eof (ts ++ [stop])).bind _ = _
    rw [done, Parsed.bind, done']
    simp [Parsed.after]
  · exact .inr failed.bind

/-- A rule ends with the token whatever is made of its value. -/
lemma Ends.map (h : Ends stop rule ts) (f : α → β) :
    Ends stop (fun eof tokens => (rule eof tokens).map f) ts :=
  h.bind_last fun value _ => ⟨f value, rfl⟩

/-- In front of the token, there is the first of the tokens before it, or else itself. -/
lemma front_append (eof : Token) (ts us : List Token) :
    front eof (ts ++ stop :: us) = ts.headD stop := by
  cases ts <;> rfl

/-- Only a semicolon fills the place of one. -/
lemma expect_stays (isStop : stop.kind = .semicolon) {place : Expectation}
    (notSemicolon : place.kind ≠ .semicolon) (ts : List Token) :
    Stays stop (fun eof tokens => (expect eof place tokens).result) ts := by
  cases ts with
  | nil =>
    refine .inr ⟨⟨.expected place, stop⟩, [], [], List.nil_suffix, ?_⟩
    intro eof us
    have ne : stop.kind ≠ place.kind := isStop ▸ notSemicolon.symm
    exact (result_expect_cons eof place stop us).trans (if_neg ne)
  | cons token rest =>
    by_cases kind : token.kind = place.kind
    · refine .inl ⟨token, rest, [], List.suffix_cons _ _, ?_⟩
      intro eof us
      exact expect_done eof kind _
    · refine .inr ⟨⟨.expected place, token⟩, token :: rest, [], List.suffix_rfl, ?_⟩
      intro eof us
      exact (result_expect_cons eof place token _).trans (if_neg kind)

/-- Of a list, what follows an item is read if a comma follows the item. -/
lemma listed_stays (isStop : stop.kind = .semicolon) {more : Token → List Token → Parsed (List α)}
    (item : α) {ts : List Token}
    (others : ∀ rest, rest.length < ts.length → Stays stop more rest) :
    Stays stop (fun eof tokens => match tokens with
      | [] => .done [item] [] []
      | token :: rest =>
        if token.kind = .comma then (more eof rest).map (item :: ·)
        else .done [item] (token :: rest) []) ts := by
  cases ts with
  | nil =>
    refine .inl ⟨[item], [], [], List.nil_suffix, ?_⟩
    intro eof us
    exact if_neg (by rw [isStop]; decide)
  | cons token rest =>
    by_cases comma : token.kind = .comma
    · have parts := (others rest (Nat.lt_succ_self _)).map (item :: ·)
      apply parts.handOn (List.suffix_cons _ _)
      intro eof us
      exact if_pos comma
    · refine .inl ⟨[item], token :: rest, [], List.suffix_rfl, ?_⟩
      intro eof us
      exact if_neg comma

/-- To make an assignment takes no tokens. -/
lemma assigned_stays (token : Token) (left value : Expr) (ts : List Token) :
    Stays stop (fun _ rest => match left with
      | .ident name => .done (.assign name value) rest []
      | left => .done left rest [⟨.invalidTarget, token⟩]) ts := by
  cases left with
  | ident name => exact .inl ⟨.assign name value, ts, [], List.suffix_rfl, fun _ _ => rfl⟩
  | _ => exact .inl ⟨_, ts, [⟨.invalidTarget, token⟩], List.suffix_rfl, fun _ _ => rfl⟩

mutual

/-- Expressions take no semicolon. -/
lemma expression_stays (isStop : stop.kind = .semicolon) (power : Nat) (ts : List Token) :
    Stays stop (fun eof tokens => (expression eof power tokens).result) ts := by
  have parts := (operand_stays isStop ts).bind (fun eof tokens => (operand eof tokens).within)
    fun left rest _ less => continued_stays isStop power left rest
  exact parts.handOn List.suffix_rfl fun eof us => result_expression eof power _
termination_by 6 * ts.length + 3

/-- An operand takes no semicolon behind it. -/
lemma operand_stays (isStop : stop.kind = .semicolon) (ts : List Token) :
    Stays stop (fun eof tokens => (operand eof tokens).result) ts := by
  cases ts with
  | nil =>
    refine .inr ⟨⟨.noExpression, stop⟩, [], [], List.nil_suffix, ?_⟩
    intro eof us
    have leading : Leading.ofToken? stop = none := by rw [Leading.ofToken?, isStop]; rfl
    show (operand eof (stop :: us)).result = _
    rw [result_operand_cons, leading]
    rfl
  | cons token rest =>
    cases leading : Leading.ofToken? token with
    | none =>
      refine .inr ⟨⟨.noExpression, token⟩, token :: rest, [], List.suffix_rfl, ?_⟩
      intro eof us
      show (operand eof (token :: (rest ++ stop :: us))).result = _
      rw [result_operand_cons, leading]
      rfl
    | some first =>
      cases first with
      | atom atom =>
        refine .inl ⟨.literal atom, rest, [], List.suffix_cons _ _, ?_⟩
        intro eof us
        show (operand eof (token :: (rest ++ stop :: us))).result = _
        rw [result_operand_cons, leading]
      | name =>
        refine .inl ⟨.ident token, rest, [], List.suffix_cons _ _, ?_⟩
        intro eof us
        show (operand eof (token :: (rest ++ stop :: us))).result = _
        rw [result_operand_cons, leading]
      | unary op =>
        apply ((expression_stays isStop op.power rest).map (.unary op token)).handOn
          (List.suffix_cons _ _)
        intro eof us
        show (operand eof (token :: (rest ++ stop :: us))).result = _
        rw [result_operand_cons, leading]
      | group =>
        have parts := (expression_stays isStop 0 rest).bind
          (fun eof tokens => (expression eof 0 tokens).within)
          fun inner rest' _ _ =>
            (expect_stays isStop (by decide : Expectation.groupEnd.kind ≠ .semicolon) rest').map
              fun _ => Expr.group inner
        apply parts.handOn (List.suffix_cons _ _)
        intro eof us
        show (operand eof (token :: (rest ++ stop :: us))).result = _
        rw [result_operand_cons, leading]
termination_by 6 * ts.length + 2

/-- What goes on with an operand takes no semicolon behind it. -/
lemma continued_stays (isStop : stop.kind = .semicolon) (power : Nat) (left : Expr)
    (ts : List Token) :
    Stays stop (fun eof tokens => (continued eof power left tokens).result) ts := by
  cases ts with
  | nil =>
    refine .inl ⟨left, [], [], List.nil_suffix, ?_⟩
    intro eof us
    have none : Continuation.ofKind? stop.kind = none := by rw [isStop]; rfl
    show (continued eof power left (stop :: us)).result = _
    rw [result_continued_cons, none]
    rfl
  | cons token rest =>
    have unfolded : ∀ eof us, (continued eof power left (token :: rest ++ stop :: us)).result = _ :=
      fun eof us => result_continued_cons eof power left token (rest ++ stop :: us)
    cases found : Continuation.ofKind? token.kind with
    | none =>
      refine .inl ⟨left, token :: rest, [], List.suffix_rfl, ?_⟩
      intro eof us
      exact (unfolded eof us).trans (by rw [found]; rfl)
    | some c =>
      by_cases lt : c.leftPower < power
      · refine .inl ⟨left, token :: rest, [], List.suffix_rfl, ?_⟩
        intro eof us
        exact (unfolded eof us).trans (by rw [found]; exact if_pos lt)
      · have parts := (extended_stays isStop left token c rest).bind
          (fun eof tokens => (extended eof left token c tokens).within)
          fun left rest' _ less => continued_stays isStop power left rest'
        apply parts.handOn (List.suffix_cons _ _)
        intro eof us
        exact (unfolded eof us).trans (by rw [found]; exact if_neg lt)
termination_by 6 * ts.length

/-- What is made of an operand and an operator takes no semicolon behind it. -/
lemma extended_stays (isStop : stop.kind = .semicolon) (left : Expr) (token : Token)
    (c : Continuation) (ts : List Token) :
    Stays stop (fun eof tokens => (extended eof left token c tokens).result) ts := by
  cases c with
  | call =>
    have closing : Expectation.argumentsEnd.kind ≠ .semicolon := by decide
    by_cases empty : (ts.headD stop).kind = .rightParen
    · have parts := (expect_stays isStop closing ts).map fun paren => Expr.call left paren []
      apply parts.handOn List.suffix_rfl
      intro eof us
      rw [result_extended_call, front_append, if_pos empty]
    · have parts := (arguments_stays isStop 0 ts).bind
        (fun eof tokens => (arguments eof 0 tokens).within)
        fun arguments rest _ _ =>
          (expect_stays isStop closing rest).map fun paren => Expr.call left paren arguments
      apply parts.handOn List.suffix_rfl
      intro eof us
      rw [result_extended_call, front_append, if_neg empty]
  | binary op =>
    have parts := (expression_stays isStop (op.leftPower + 1) ts).map (Expr.binary op token left)
    exact parts.handOn List.suffix_rfl fun eof us => result_extended_binary eof left token op _
  | logical op =>
    have parts := (expression_stays isStop (op.leftPower + 1) ts).map (Expr.logical op token left)
    exact parts.handOn List.suffix_rfl fun eof us => result_extended_logical eof left token op _
  | assign =>
    have parts := (expression_stays isStop 1 ts).bind
      (fun eof tokens => (expression eof 1 tokens).within)
      fun value rest _ _ => assigned_stays token left value rest
    exact parts.handOn List.suffix_rfl fun eof us => result_extended_assign eof left token _
termination_by 6 * ts.length + 5

/-- Arguments take no semicolon behind them. -/
lemma arguments_stays (isStop : stop.kind = .semicolon) (count : Nat) (ts : List Token) :
    Stays stop (fun eof tokens => (arguments eof count tokens).result) ts := by
  have parts := (expression_stays isStop 0 ts).bind
    (fun eof tokens => (expression eof 0 tokens).within)
    fun argument rest _ less => listed_stays isStop argument
      fun rest' less' => arguments_stays isStop (count + 1) rest'
  have limited := parts.after
    (if argumentLimit ≤ count then [⟨.tooManyArguments, ts.headD stop⟩] else [])
  apply limited.handOn List.suffix_rfl
  intro eof us
  have same := result_arguments eof count (ts ++ stop :: us)
  rw [front_append] at same
  exact same
termination_by 6 * ts.length + 4

end

/-- Tokens in front of the semicolon of a statement that has no other one, no blocks and no `for`
loops. -/
def Plain (ts : List Token) : Prop :=
  ∀ token ∈ ts, token.kind ≠ .semicolon ∧ token.kind ≠ .leftBrace ∧ token.kind ≠ .kwFor

/-- The last of plain tokens are plain. -/
lemma Plain.suffix (h : Plain ts) (left : rest <:+ ts) : Plain rest :=
  fun token mem => h token (left.subset mem)

/-- The tokens behind the first of plain ones are plain. -/
lemma Plain.tail {token : Token} (h : Plain (token :: rest)) : Plain rest :=
  h.suffix (List.suffix_cons _ _)

section Statements

variable (isStop : stop.kind = .semicolon)

include isStop

/-- Where a semicolon is expected, reading ends with it. -/
lemma expect_ends {place : Expectation} (isSemicolon : place.kind = .semicolon) (plain : Plain ts) :
    Ends stop (fun eof tokens => (expect eof place tokens).result) ts := by
  cases ts with
  | nil => exact .inl fun eof => ⟨stop, [], expect_done eof (isStop.trans isSemicolon.symm) []⟩
  | cons token rest =>
    refine .inr ⟨⟨.expected place, token⟩, token :: rest, [], List.suffix_rfl, ?_⟩
    intro eof us
    have ne : token.kind ≠ place.kind := isSemicolon ▸ (plain token List.mem_cons_self).1
    exact (result_expect_cons eof place token _).trans (if_neg ne)

/-- No brace is found where there is none. -/
lemma expect_fails {place : Expectation} (isBrace : place.kind = .leftBrace) (plain : Plain ts) :
    Fails stop (fun eof tokens => (expect eof place tokens).result) ts := by
  cases ts with
  | nil =>
    refine ⟨⟨.expected place, stop⟩, [], [], List.nil_suffix, ?_⟩
    intro eof us
    have ne : stop.kind ≠ place.kind := by rw [isStop, isBrace]; decide
    exact (result_expect_cons eof place stop us).trans (if_neg ne)
  | cons token rest =>
    refine ⟨⟨.expected place, token⟩, token :: rest, [], List.suffix_rfl, ?_⟩
    intro eof us
    have ne : token.kind ≠ place.kind := isBrace ▸ (plain token List.mem_cons_self).2.1
    exact (result_expect_cons eof place token _).trans (if_neg ne)

/-- An expression with a semicolon behind it ends with the semicolon. -/
lemma closed_ends {place : Expectation} (isSemicolon : place.kind = .semicolon)
    (plain : Plain ts) : Ends stop (fun eof tokens => (closed eof place tokens).result) ts := by
  have parts := (expression_stays isStop 0 ts).bind_ends
    (fun eof tokens => (expression eof 0 tokens).within)
    fun e rest left _ => (expect_ends isStop isSemicolon (plain.suffix left)).map fun _ => e
  exact parts.handOn List.suffix_rfl fun eof us => result_closed eof place _

/-- An expression between two tokens takes no semicolon. -/
lemma enclosed_stays {start close : Expectation} (opening : start.kind ≠ .semicolon)
    (closing : close.kind ≠ .semicolon) (ts : List Token) :
    Stays stop (fun eof tokens => (enclosed eof start close tokens).result) ts := by
  have inner : ∀ ts, Stays stop (fun eof tokens => (closed eof close tokens).result) ts := by
    intro ts
    have parts := (expression_stays isStop 0 ts).bind
      (fun eof tokens => (expression eof 0 tokens).within)
      fun e rest _ _ => (expect_stays isStop closing rest).map fun _ => e
    exact parts.handOn List.suffix_rfl fun eof us => result_closed eof close _
  have parts := (expect_stays isStop opening ts).bind
    (fun eof tokens => (expect eof start tokens).within) fun _ rest _ _ => inner rest
  exact parts.handOn List.suffix_rfl fun eof us => result_enclosed eof start close _

/-- An expression that may be missing ends with the semicolon behind it. -/
lemma optional_ends {place : Expectation} (isSemicolon : place.kind = .semicolon)
    (plain : Plain ts) : Ends stop (fun eof tokens => (optional eof place tokens).result) ts := by
  by_cases absent : (ts.headD stop).kind = place.kind
  · have parts := (expect_ends isStop isSemicolon plain).map fun _ => (none : Option Expr)
    apply parts.handOn List.suffix_rfl
    intro eof us
    rw [result_optional, front_append, if_pos absent]
  · have parts := (expression_stays isStop 0 ts).bind_ends
      (fun eof tokens => (expression eof 0 tokens).within)
      fun e rest left _ => (expect_ends isStop isSemicolon (plain.suffix left)).map fun _ => some e
    apply parts.handOn List.suffix_rfl
    intro eof us
    rw [result_optional, front_append, if_neg absent]

/-- The declaration of a variable ends with its semicolon. -/
lemma variableDeclaration_ends (plain : Plain ts) :
    Ends stop (fun eof tokens => (variableDeclaration eof tokens).result) ts := by
  have isSemicolon : Expectation.variableEnd.kind = .semicolon := rfl
  have behind : ∀ name rest, Plain rest →
      Ends stop (fun eof rest => match rest with
        | [] => .failed ⟨.expected .variableEnd, eof⟩ [] []
        | token :: rest =>
          if token.kind = .equal then
            (closed eof .variableEnd rest).result.map fun e => Stmt.var name (some e)
          else (expect eof .variableEnd (token :: rest)).result.map fun _ => Stmt.var name none)
        rest := by
    intro name rest plain
    have absent := (expect_ends isStop isSemicolon plain).map fun _ => Stmt.var name none
    cases rest with
    | nil => exact absent.handOn List.suffix_rfl fun eof us => if_neg (by rw [isStop]; decide)
    | cons token rest =>
      by_cases equal : token.kind = .equal
      · have parts := (closed_ends isStop isSemicolon plain.tail).map
          fun e => Stmt.var name (some e)
        exact parts.handOn (List.suffix_cons _ _) fun eof us => if_pos equal
      · exact absent.handOn List.suffix_rfl fun eof us => if_neg equal
  have parts := (expect_stays isStop
    (by decide : Expectation.variableName.kind ≠ .semicolon) ts).bind_ends
    (fun eof tokens => (expect eof .variableName tokens).within)
    fun name rest left _ => behind name rest (plain.suffix left)
  apply parts.handOn List.suffix_rfl
  intro eof us
  exact result_variableDeclaration eof _

/-- Parameters take no semicolon. -/
lemma parameters_stays (count : Nat) (ts : List Token) :
    Stays stop (fun eof tokens => (parameters eof count tokens).result) ts := by
  have parts := (expect_stays isStop
    (by decide : Expectation.parameterName.kind ≠ .semicolon) ts).bind
    (fun eof tokens => (expect eof .parameterName tokens).within)
    fun parameter rest _ less => listed_stays isStop parameter
      fun rest' less' => parameters_stays (count + 1) rest'
  have limited := parts.after
    (if argumentLimit ≤ count then [⟨.tooManyParameters, ts.headD stop⟩] else [])
  apply limited.handOn List.suffix_rfl
  intro eof us
  have same := result_parameters eof count (ts ++ stop :: us)
  rw [front_append] at same
  exact same
termination_by ts.length

/-- Parameters with their parenthesis take no semicolon. -/
lemma parameterList_stays (ts : List Token) :
    Stays stop (fun eof tokens => (parameterList eof tokens).result) ts := by
  have closing : Expectation.parametersEnd.kind ≠ .semicolon := by decide
  by_cases empty : (ts.headD stop).kind = .rightParen
  · have parts := (expect_stays isStop closing ts).map fun _ => ([] : List Token)
    apply parts.handOn List.suffix_rfl
    intro eof us
    rw [result_parameterList, front_append, if_pos empty]
  · have parts := (parameters_stays isStop 0 ts).bind
      (fun eof tokens => (parameters eof 0 tokens).within)
      fun parameters rest _ _ => (expect_stays isStop closing rest).map fun _ => parameters
    apply parts.handOn List.suffix_rfl
    intro eof us
    rw [result_parameterList, front_append, if_neg empty]

/-- A function needs a brace. -/
lemma function_fails (plain : Plain ts) :
    Fails stop (fun eof tokens => (function eof tokens).result) ts := by
  have name : Expectation.functionName.kind ≠ .semicolon := by decide
  have start : Expectation.parametersStart.kind ≠ .semicolon := by decide
  have parts := (expect_stays isStop name ts).bind_fails fun name rest left =>
    (expect_stays isStop start rest).bind_fails fun _ rest left' =>
      (parameterList_stays isStop rest).bind_fails fun parameters rest left'' =>
        (expect_fails isStop (rfl : Expectation.bodyStart.kind = .leftBrace)
          (plain.suffix (left''.trans (left'.trans left)))).map fun _ => (name, parameters)
  have header : Fails stop (fun eof tokens => (signature eof tokens).result) ts :=
    parts.handOn List.suffix_rfl fun eof us => result_signature eof _
  exact header.bind.handOn List.suffix_rfl fun eof us => result_function eof _

end Statements

mutual

/-- Without blocks and `for` loops, a statement takes one semicolon, which is its last token. -/
lemma statement_ends (isStop : stop.kind = .semicolon) {ts : List Token} (plain : Plain ts) :
    Ends stop (fun eof tokens => (statement eof tokens).result) ts := by
  cases ts with
  | nil =>
    have parts := (closed_ends isStop (rfl : Expectation.expressionEnd.kind = .semicolon) plain).map
      Stmt.expression
    apply parts.handOn List.suffix_rfl
    intro eof us
    apply (result_statement_cons eof stop us).trans
    rw [isStop]
    rfl
  | cons token rest =>
    have unfolded : ∀ eof us, (statement eof (token :: rest ++ stop :: us)).result = _ :=
      fun eof us => result_statement_cons eof token (rest ++ stop :: us)
    have whole := (closed_ends isStop (rfl : Expectation.expressionEnd.kind = .semicolon) plain).map
      Stmt.expression
    have left : rest <:+ token :: rest := List.suffix_cons _ _
    cases kind : token.kind with
    | kwPrint =>
      have parts := (closed_ends isStop (rfl : Expectation.printEnd.kind = .semicolon)
        plain.tail).map Stmt.print
      exact parts.handOn left fun eof us => (unfolded eof us).trans (by rw [kind])
    | kwReturn =>
      have parts := (optional_ends isStop (rfl : Expectation.returnEnd.kind = .semicolon)
        plain.tail).map (Stmt.ret token)
      exact parts.handOn left fun eof us => (unfolded eof us).trans (by rw [kind])
    | leftBrace => exact absurd kind (plain token List.mem_cons_self).2.1
    | kwFor => exact absurd kind (plain token List.mem_cons_self).2.2
    | kwIf =>
      have parts := (enclosed_stays isStop (by decide : Expectation.ifStart.kind ≠ .semicolon)
        (by decide : Expectation.ifEnd.kind ≠ .semicolon) rest).bind_ends
        (fun eof tokens => (enclosed eof .ifStart .ifEnd tokens).within)
        fun condition rest' left less =>
          branches_ends isStop condition (plain.tail.suffix left)
      exact parts.handOn left fun eof us => (unfolded eof us).trans (by rw [kind])
    | kwWhile =>
      have parts := (enclosed_stays isStop (by decide : Expectation.whileStart.kind ≠ .semicolon)
        (by decide : Expectation.whileEnd.kind ≠ .semicolon) rest).bind_ends
        (fun eof tokens => (enclosed eof .whileStart .whileEnd tokens).within)
        fun condition rest' left less =>
          (statement_ends isStop (plain.tail.suffix left)).map (Stmt.loop condition none)
      exact parts.handOn left fun eof us => (unfolded eof us).trans (by rw [kind])
    | _ =>
      exact whole.handOn List.suffix_rfl fun eof us =>
        (unfolded eof us).trans (by rw [kind]; rfl)
termination_by 2 * ts.length
decreasing_by all_goals subst_vars; simp only [List.length_cons]; omega

/-- The branches of an `if` end with the semicolon of the last one. -/
lemma branches_ends (isStop : stop.kind = .semicolon) (condition : Expr) {ts : List Token}
    (plain : Plain ts) :
    Ends stop (fun eof tokens => (branches eof condition tokens).result) ts := by
  have parts : Ends stop (fun eof tokens => (statement eof tokens).result.bind
      fun thenBranch rest => match rest with
        | [] => .done (Stmt.ifThen condition thenBranch) [] []
        | token :: rest =>
          if token.kind = .kwElse then
            (statement eof rest).result.map (.ifElse condition thenBranch)
          else .done (.ifThen condition thenBranch) (token :: rest) []) ts :=
    (statement_ends isStop plain).bind_last fun thenBranch _ => ⟨.ifThen condition thenBranch, rfl⟩
  exact parts.handOn List.suffix_rfl fun eof us => result_branches eof condition _
termination_by 2 * ts.length + 1

end

/-- A declaration ends with its semicolon. -/
lemma declaration_ends (isStop : stop.kind = .semicolon) (plain : Plain ts) :
    Ends stop (fun eof tokens => (declaration eof tokens).result) ts := by
  have inner := statement_ends isStop plain
  cases ts with
  | nil =>
    apply inner.handOn List.suffix_rfl
    intro eof us
    apply (result_declaration_cons eof stop us).trans
    rw [isStop]
    rfl
  | cons token rest =>
    have unfolded : ∀ eof us, (declaration eof (token :: rest ++ stop :: us)).result = _ :=
      fun eof us => result_declaration_cons eof token (rest ++ stop :: us)
    have left : rest <:+ token :: rest := List.suffix_cons _ _
    by_cases isFun : token.kind = .kwFun
    · have parts := function_fails isStop plain.tail
      exact .inr (parts.handOn left fun eof us => (unfolded eof us).trans (if_pos isFun))
    · by_cases isVar : token.kind = .kwVar
      · have parts := variableDeclaration_ends isStop plain.tail
        apply parts.handOn left
        intro eof us
        rw [unfolded, if_neg isFun, if_pos isVar]
      · apply inner.handOn List.suffix_rfl
        intro eof us
        rw [unfolded, if_neg isFun, if_neg isVar]
        rfl

end Parse

end Lox
