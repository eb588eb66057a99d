import Lox.Proofs.Grammar.Expressions

/-!
# Parts of statements

The rules of the parser that read no statements: each is done without errors, with some tokens left,
exactly if the grammar derives the tokens before those.
-/

namespace Lox

open Parse

namespace Grammar

/-- The kinds of tokens that begin operands. -/
def operandKinds : List Kind :=
  [.number, .string, .kwTrue, .kwFalse, .kwNil, .identifier, .leftParen, .bang, .minus]

/-- A token that begins an operand is of a kind that does. -/
lemma mem_operandKinds {token : Token} (leading : Leading.ofToken? token ≠ none) :
    token.kind ∈ operandKinds := by
  cases found : Leading.ofToken? token with
  | none => exact (leading found).elim
  | some leading =>
    have kind := leading_cases found
    cases leading with
    | atom atom =>
      change Literal token atom at kind
      cases kind with
      | number kind _ | string kind _ | true kind | false kind | nil kind =>
        rw [kind]
        decide
    | name | group =>
      change token.kind = _ at kind
      rw [kind]
      decide
    | unary op =>
      change Unary token.kind op at kind
      generalize token.kind = k at kind
      cases kind <;> decide

/-- An expression begins with a token of a kind that begins operands. -/
lemma Expression.first_mem {level : Level} {ts : List Token} {e : Expr}
    (h : Expression level ts e) : ∃ token us, ts = token :: us ∧ token.kind ∈ operandKinds := by
  obtain ⟨token, us, eq, leading⟩ := h.first
  exact ⟨token, us, eq, mem_operandKinds leading⟩

/-- A member of a list differs from what is not in it. -/
lemma ne_of_mem {kind kind' : Kind} {kinds : List Kind} (mem : kind ∈ kinds)
    (not : kind' ∉ kinds) : kind ≠ kind' :=
  fun eq => not (eq ▸ mem)

variable {eof : Token} {place : Expectation} {tokens rest : List Token}

/-- A place is filled by the token in front. -/
lemma expect_iff {token : Token} :
    (expect eof place tokens).result = .done token rest [] ↔
      tokens = token :: rest ∧ token.kind = place.kind := by
  constructor
  · exact expect_eq_done eof
  · rintro ⟨rfl, kind⟩
    exact expect_done eof kind rest

/-- An expression and the token behind it. -/
lemma closed_iff (none : Continuation.ofKind? place.kind = none) {e : Expr} :
    (closed eof place tokens).result = .done e rest [] ↔
      ∃ ts stop, tokens = ts ++ stop :: rest ∧ Expression .assignment ts e ∧
        stop.kind = place.kind := by
  rw [result_closed]
  constructor
  · intro done
    obtain ⟨value, middle, read, behind⟩ := Parsed.bind_eq_done.mp done
    obtain ⟨stop, expected, rfl⟩ := Parsed.map_eq_done.mp behind
    obtain ⟨rfl, kind⟩ := expect_iff.mp expected
    obtain ⟨ts, rfl, derived⟩ := Expression.of_read read
    exact ⟨ts, stop, rfl, derived, kind⟩
  · rintro ⟨ts, stop, rfl, derived, kind⟩
    have stops : Stops 0 (stop :: rest) := .of_none (by rw [kind]; exact none) 0 rest
    rw [derived.read eof stops, Parsed.bind_done, expect_done eof kind, Parsed.map_done]

/-- An expression, unless the token behind it comes first, and that token. -/
lemma optional_iff (none : Continuation.ofKind? place.kind = none)
    (not : place.kind ∉ operandKinds) {value : Option Expr} :
    (optional eof place tokens).result = .done value rest [] ↔
      ∃ ts stop, tokens = ts ++ stop :: rest ∧ Optional ts value ∧ stop.kind = place.kind := by
  rw [result_optional]
  constructor
  · intro done
    split at done
    · obtain ⟨stop, expected, rfl⟩ := Parsed.map_eq_done.mp done
      obtain ⟨rfl, kind⟩ := expect_iff.mp expected
      exact ⟨[], stop, rfl, .none, kind⟩
    · obtain ⟨e, middle, read, behind⟩ := Parsed.bind_eq_done.mp done
      obtain ⟨stop, expected, rfl⟩ := Parsed.map_eq_done.mp behind
      obtain ⟨rfl, kind⟩ := expect_iff.mp expected
      obtain ⟨ts, rfl, derived⟩ := Expression.of_read read
      exact ⟨ts, stop, rfl, .some derived, kind⟩
  · rintro ⟨ts, stop, rfl, derived, kind⟩
    cases derived with
    | none =>
      rw [List.nil_append, front_cons, if_pos kind, expect_done eof kind, Parsed.map_done]
    | some derived =>
      have stops : Stops 0 (stop :: rest) := .of_none (by rw [kind]; exact none) 0 rest
      have read := derived.read eof stops
      obtain ⟨token, us, rfl, mem⟩ := derived.first_mem
      have ne : token.kind ≠ place.kind := ne_of_mem mem not
      rw [List.cons_append, front_cons, if_neg ne, ← List.cons_append, read, Parsed.bind_done,
        expect_done eof kind, Parsed.map_done]

/-- An expression between parentheses. -/
lemma enclosed_iff {start stop : Expectation} (opening : start.kind = .leftParen)
    (closing : stop.kind = .rightParen) {e : Expr} :
    (enclosed eof start stop tokens).result = .done e rest [] ↔
      ∃ ts, tokens = ts ++ rest ∧ Condition ts e := by
  have none : Continuation.ofKind? stop.kind = none := by rw [closing]; rfl
  rw [result_enclosed]
  constructor
  · intro done
    obtain ⟨token, middle, expected, behind⟩ := Parsed.bind_eq_done.mp done
    obtain ⟨rfl, kind⟩ := expect_iff.mp expected
    obtain ⟨ts, token', rfl, derived, kind'⟩ := (closed_iff none).mp behind
    refine ⟨token :: (ts ++ [token']), ?_, .mk (kind.trans opening) derived (kind'.trans closing)⟩
    rw [List.cons_append, List.append_assoc, List.singleton_append]
  · rintro ⟨_, rfl, ⟨first, derived, last⟩⟩
    rw [List.cons_append, List.append_assoc, List.singleton_append,
      expect_done eof (first.trans opening.symm), Parsed.bind_done]
    exact (closed_iff none).mpr ⟨_, _, rfl, derived, last.trans closing.symm⟩

/-- The rest of a variable declaration. -/
lemma variableDeclaration_iff {s : Stmt} :
    (variableDeclaration eof tokens).result = .done s rest [] ↔
      ∃ ts, tokens = ts ++ rest ∧ Variable ts s := by
  rw [result_variableDeclaration]
  constructor
  · intro done
    obtain ⟨name, middle, expected, behind⟩ := Parsed.bind_eq_done.mp done
    obtain ⟨rfl, isName⟩ := expect_iff.mp expected
    cases middle with
    | nil => exact nomatch behind
    | cons token others =>
      dsimp only at behind
      split at behind
      · rename_i isEqual
        obtain ⟨e, read, rfl⟩ := Parsed.map_eq_done.mp behind
        obtain ⟨ts, stop, rfl, derived, kind⟩ := (closed_iff rfl).mp read
        refine ⟨name :: token :: (ts ++ [stop]), ?_, .some isName isEqual derived kind⟩
        rw [List.cons_append, List.cons_append, List.append_assoc, List.singleton_append]
      · obtain ⟨stop, expected', rfl⟩ := Parsed.map_eq_done.mp behind
        obtain ⟨eq, kind⟩ := expect_iff.mp expected'
        cases eq
        exact ⟨[name, token], rfl, .none isName kind⟩
  · rintro ⟨ts, rfl, derived⟩
    cases derived with
    | @none name stop isName isStop =>
      have notEqual : stop.kind ≠ .equal := by rw [isStop]; decide
      rw [List.cons_append, List.singleton_append, expect_done eof isName, Parsed.bind_done]
      dsimp only
      rw [if_neg notEqual, expect_done eof isStop, Parsed.map_done]
    | @some name token stop ts e isName isEqual value isStop =>
      have read : (closed eof .variableEnd (ts ++ stop :: rest)).result = .done e rest [] :=
        (closed_iff rfl).mpr ⟨ts, stop, rfl, value, isStop⟩
      rw [List.cons_append, List.cons_append, List.append_assoc, List.singleton_append,
        expect_done eof isName, Parsed.bind_done]
      dsimp only
      rw [if_pos isEqual, read, Parsed.map_done]

/-- Names are read up to a token that is no comma. -/
lemma Names.read {ts names : List Token} (h : Names ts names) {count : Nat}
    (few : count + names.length ≤ 255)
    (last : ∀ token others, rest = token :: others → token.kind ≠ .comma) :
    (parameters eof count (ts ++ rest)).result = .done names rest [] := by
  induction h generalizing count with
  | @last name isName =>
    have limit : ¬ argumentLimit ≤ count := Nat.not_le.mpr few
    rw [List.singleton_append, result_parameters, expect_done eof isName, Parsed.bind_done,
      if_neg limit, Parsed.after_nil]
    cases rest with
    | nil => rfl
    | cons token others =>
      dsimp only
      rw [if_neg (last token others rfl)]
  | @more name comma ts names isName isComma _ ih =>
    rw [List.length_cons] at few
    have limit : ¬ argumentLimit ≤ count := by
      rw [argumentLimit]
      omega
    rw [List.cons_append, List.cons_append, result_parameters, expect_done eof isName,
      Parsed.bind_done, if_neg limit, Parsed.after_nil]
    dsimp only
    rw [if_pos isComma, ih (by omega), Parsed.map_done]

/-- Names that are read without errors are derived. -/
lemma Names.of_read {names : List Token} {count : Nat}
    (read : (parameters eof count tokens).result = .done names rest []) :
    ∃ ts, tokens = ts ++ rest ∧ Names ts names ∧ count + names.length ≤ 255 := by
  induction size : tokens.length using Nat.strongRecOn generalizing tokens count names with
  | ind n ih =>
    rw [result_parameters] at read
    obtain ⟨noErrors, clean⟩ := Parsed.after_eq_done.mp read
    obtain ⟨name, middle, expected, behind⟩ := Parsed.bind_eq_done.mp clean
    obtain ⟨rfl, isName⟩ := expect_iff.mp expected
    have limit : count + 1 ≤ 255 := by
      by_contra exceeded
      have reached : argumentLimit ≤ count := Nat.le_of_lt_succ (Nat.lt_of_not_le exceeded)
      rw [if_pos reached] at noErrors
      exact nomatch noErrors
    cases middle with
    | nil =>
      cases behind
      exact ⟨[name], rfl, .last isName, limit⟩
    | cons comma others =>
      dsimp only at behind
      split at behind
      · rename_i isComma
        obtain ⟨more, read', rfl⟩ := Parsed.map_eq_done.mp behind
        have shorter : others.length < n := by
          rw [← size, List.length_cons, List.length_cons]
          omega
        obtain ⟨ts, rfl, derived, few⟩ := ih others.length shorter read' rfl
        refine ⟨name :: comma :: ts, rfl, .more isName isComma derived, ?_⟩
        rw [List.length_cons]
        omega
      · cases behind
        exact ⟨[name], rfl, .last isName, limit⟩

/-- Parameters and the parenthesis behind them. -/
lemma parameterList_iff {names : List Token} :
    (parameterList eof tokens).result = .done names rest [] ↔
      ∃ ts stop, tokens = ts ++ stop :: rest ∧ Parameters ts names ∧ stop.kind = .rightParen := by
  rw [result_parameterList]
  constructor
  · intro done
    split at done
    · obtain ⟨stop, expected, rfl⟩ := Parsed.map_eq_done.mp done
      obtain ⟨rfl, kind⟩ := expect_iff.mp expected
      exact ⟨[], stop, rfl, .none, kind⟩
    · obtain ⟨found, middle, read, behind⟩ := Parsed.bind_eq_done.mp done
      obtain ⟨stop, expected, rfl⟩ := Parsed.map_eq_done.mp behind
      obtain ⟨rfl, kind⟩ := expect_iff.mp expected
      obtain ⟨ts, rfl, derived, few⟩ := Names.of_read read
      exact ⟨ts, stop, rfl, .some derived (by omega), kind⟩
  · rintro ⟨ts, stop, rfl, derived, kind⟩
    have closing : (expect eof .parametersEnd (stop :: rest)).result = .done stop rest [] :=
      expect_done eof kind rest
    cases derived with
    | none => rw [List.nil_append, front_cons, if_pos kind, closing, Parsed.map_done]
    | some derived few =>
      have read : (parameters eof 0 (ts ++ stop :: rest)).result = .done names (stop :: rest) [] :=
        derived.read (by omega) <| by
          rintro _ _ ⟨rfl, rfl⟩ comma
          exact nomatch kind.symm.trans comma
      have notClosing : (front eof (ts ++ stop :: rest)).kind ≠ .rightParen := by
        cases derived with
        | last isName | more isName _ _ =>
          intro closing
          exact nomatch isName.symm.trans closing
      rw [if_neg notClosing, read, Parsed.bind_done, closing, Parsed.map_done]

/-- The name and the parameters of a function with the brace behind them. -/
lemma signature_iff {name : Token} {names : List Token} :
    (signature eof tokens).result = .done (name, names) rest [] ↔
      ∃ start ts stop brace, tokens = name :: start :: (ts ++ stop :: brace :: rest) ∧
        name.kind = .identifier ∧ start.kind = .leftParen ∧ Parameters ts names ∧
        stop.kind = .rightParen ∧ brace.kind = .leftBrace := by
  rw [result_signature]
  constructor
  · intro done
    obtain ⟨_, _, expected, done₁⟩ := Parsed.bind_eq_done.mp done
    obtain ⟨rfl, isName⟩ := expect_iff.mp expected
    obtain ⟨start, _, expected₁, done₂⟩ := Parsed.bind_eq_done.mp done₁
    obtain ⟨rfl, opening⟩ := expect_iff.mp expected₁
    obtain ⟨_, _, read, done₃⟩ := Parsed.bind_eq_done.mp done₂
    obtain ⟨ts, stop, rfl, derived, closing⟩ := parameterList_iff.mp read
    obtain ⟨brace, expected₂, eq⟩ := Parsed.map_eq_done.mp done₃
    obtain ⟨rfl, isBrace⟩ := expect_iff.mp expected₂
    cases eq
    exact ⟨start, ts, stop, brace, rfl, isName, opening, derived, closing, isBrace⟩
  · rintro ⟨start, ts, stop, brace, rfl, isName, opening, derived, closing, isBrace⟩
    have read : (parameterList eof (ts ++ stop :: brace :: rest)).result =
        .done names (brace :: rest) [] :=
      parameterList_iff.mpr ⟨ts, stop, rfl, derived, closing⟩
    rw [expect_done eof isName, Parsed.bind_done, expect_done eof opening, Parsed.bind_done, read,
      Parsed.bind_done, expect_done eof isBrace, Parsed.map_done]

/-- The parser reads the initializers of the grammar, and nothing else without errors. -/
lemma initializer_iff {value : Option Stmt} :
    (initializer eof tokens).result = .done value rest [] ↔
      ∃ ts, tokens = ts ++ rest ∧ Initializer ts value := by
  constructor
  · intro done
    have expression : ∀ {tokens : List Token},
        ((closed eof .expressionEnd tokens).result.map fun e => some (.expression e)) =
          .done value rest [] →
        ∃ ts, tokens = ts ++ rest ∧ Initializer ts value := by
      intro tokens done
      obtain ⟨e, read, rfl⟩ := Parsed.map_eq_done.mp done
      obtain ⟨ts, stop, rfl, derived, kind⟩ := (closed_iff rfl).mp read
      refine ⟨ts ++ [stop], ?_, .expression derived kind⟩
      rw [List.append_assoc, List.singleton_append]
    cases tokens with
    | nil =>
      rw [result_initializer_nil] at done
      exact expression done
    | cons token others =>
      rw [result_initializer_cons] at done
      split at done
      · rename_i kind
        cases done
        exact ⟨[token], rfl, .none kind⟩
      · split at done
        · rename_i isVar
          obtain ⟨s, read, rfl⟩ := Parsed.map_eq_done.mp done
          obtain ⟨ts, rfl, derived⟩ := variableDeclaration_iff.mp read
          exact ⟨token :: ts, rfl, .var isVar derived⟩
        · exact expression done
  · rintro ⟨ts, rfl, derived⟩
    cases derived with
    | @none stop kind => rw [List.singleton_append, result_initializer_cons, if_pos kind]
    | @var keyword ts s isVar derived =>
      have notEnd : keyword.kind ≠ .semicolon := by rw [isVar]; decide
      rw [List.cons_append, result_initializer_cons, if_neg notEnd, if_pos isVar,
        variableDeclaration_iff.mpr ⟨ts, rfl, derived⟩, Parsed.map_done]
    | @expression stop ts e derived kind =>
      have read : (closed eof .expressionEnd (ts ++ stop :: rest)).result = .done e rest [] :=
        (closed_iff rfl).mpr ⟨ts, stop, rfl, derived, kind⟩
      obtain ⟨token, us, rfl, mem⟩ := derived.first_mem
      rw [List.append_assoc, List.singleton_append, List.cons_append, result_initializer_cons,
        if_neg (ne_of_mem mem (by decide)), if_neg (ne_of_mem mem (by decide)), ← List.cons_append,
        read, Parsed.map_done]

/-- The parser reads the parts of a `for` loop of the grammar, and nothing else without errors. -/
lemma clauses_iff {parts : ForClauses} :
    (clauses eof tokens).result = .done parts rest [] ↔
      ∃ ts, tokens = ts ++ rest ∧ Clauses ts parts := by
  rw [result_clauses]
  constructor
  · intro done
    obtain ⟨start, _, expected, done₁⟩ := Parsed.bind_eq_done.mp done
    obtain ⟨rfl, opening⟩ := expect_iff.mp expected
    obtain ⟨_, _, read₁, done₂⟩ := Parsed.bind_eq_done.mp done₁
    obtain ⟨ts, rfl, derived₁⟩ := initializer_iff.mp read₁
    obtain ⟨_, _, read₂, done₃⟩ := Parsed.bind_eq_done.mp done₂
    obtain ⟨us, semicolon, rfl, derived₂, isSemicolon⟩ :=
      (optional_iff rfl (by decide)).mp read₂
    obtain ⟨_, read₃, rfl⟩ := Parsed.map_eq_done.mp done₃
    obtain ⟨vs, stop, rfl, derived₃, closing⟩ := (optional_iff rfl (by decide)).mp read₃
    refine ⟨_, ?_, .mk opening derived₁ derived₂ isSemicolon derived₃ closing⟩
    simp only [List.cons_append, List.append_assoc, List.nil_append]
  · rintro ⟨_, rfl, derived⟩
    obtain ⟨opening, derived₁, derived₂, isSemicolon, derived₃, closing⟩ := derived
    rename_i start stop semicolon ts us vs first condition increment
    have read₁ : (initializer eof (ts ++ (us ++ semicolon :: (vs ++ stop :: rest)))).result =
        .done first (us ++ semicolon :: (vs ++ stop :: rest)) [] :=
      initializer_iff.mpr ⟨ts, rfl, derived₁⟩
    have read₂ : (optional eof .forConditionEnd (us ++ semicolon :: (vs ++ stop :: rest))).result =
        .done condition (vs ++ stop :: rest) [] :=
      (optional_iff rfl (by decide)).mpr ⟨us, semicolon, rfl, derived₂, isSemicolon⟩
    have read₃ : (optional eof .forEnd (vs ++ stop :: rest)).result = .done increment rest [] :=
      (optional_iff rfl (by decide)).mpr ⟨vs, stop, rfl, derived₃, closing⟩
    have flat : start :: (ts ++ (us ++ semicolon :: (vs ++ [stop]))) ++ rest =
        start :: (ts ++ (us ++ semicolon :: (vs ++ stop :: rest))) := by
      simp only [List.cons_append, List.append_assoc, List.nil_append]
    rw [flat, expect_done eof opening, Parsed.bind_done, read₁, Parsed.bind_done, read₂,
      Parsed.bind_done, read₃, Parsed.map_done]

end Grammar

end Lox
