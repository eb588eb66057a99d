import Lox.Proofs.Grammar.Programs
import Lox.Proofs.Recovery.Lookahead
import Mathlib

/-!
# Recovery is local

A malformed statement that ends with its only semicolon is dropped and nothing else is: reading
resumes behind the semicolon, and what is in front of the statement and behind it is read as if it
had not been there, in a program and in a block.
-/

namespace Lox

open Parse

namespace Parsed

variable {α β γ : Type}

/-- To make a value of itself changes nothing. -/
lemma map_id (p : Parsed α) : (p.map fun value => value) = p := by
  cases p with
  | done value rest errors => simp [map, bind, after]
  | failed error rest errors => rfl

/-- What is made in two steps can be made in one. -/
lemma map_map (p : Parsed α) (f : α → β) (g : β → γ) :
    (p.map f).map g = p.map fun value => g (f value) := by
  cases p with
  | done value rest errors => simp [map, bind, after]
  | failed error rest errors => rfl

end Parsed

namespace Parse

/-- Reading resumes behind the next semicolon if no statement starts before it. -/
lemma resume_stop {stop : Token} (isStop : stop.kind = .semicolon) {ts : List Token}
    (only : ∀ token ∈ ts, token.kind ≠ .semicolon)
    (noStart : ∀ token ∈ ts.tail, token.kind.startsStatement = false) (us : List Token) :
    resume (ts ++ stop :: us) = us := by
  induction ts with
  | nil => exact if_pos (.inl isStop)
  | cons token rest ih =>
    have goesOn : ¬ (token.kind = .semicolon ∨
        (rest ++ stop :: us).head?.any (·.kind.startsStatement)) := by
      rintro (isSemicolon | starts)
      · exact only token List.mem_cons_self isSemicolon
      · cases rest with
        | nil => simp [isStop, Kind.startsStatement] at starts
        | cons next rest => simp [noStart next List.mem_cons_self] at starts
    apply (if_neg goesOn).trans
    apply ih
    · exact fun token mem => only token (List.mem_cons_of_mem _ mem)
    · exact fun token mem => noStart token (List.mem_of_mem_tail mem)

/-- What is inside a suffix is inside the list. -/
lemma mem_tail_of_suffix {left ts : List Token} (behind : left <:+ ts) {token : Token}
    (mem : token ∈ left.tail) : token ∈ ts.tail := by
  cases ts with
  | nil =>
    rw [List.suffix_nil.mp behind] at mem
    exact mem
  | cons first others =>
    rcases List.suffix_cons_iff.mp behind with same | inner
    · rw [same] at mem
      exact mem
    · exact inner.subset (List.mem_of_mem_tail mem)

/-- The end mark of tokens is that of the last ones if there is none before. -/
lemma endOf_append {ts us : List Token} (noEnd : ∀ token ∈ ts, token.kind ≠ .eof) (ne : us ≠ []) :
    endOf (ts ++ us) = endOf us := by
  have none : ts.find? (·.kind = .eof) = none :=
    List.find?_eq_none.mpr fun token mem => by simp [noEnd token mem]
  have last : (ts ++ us).getLast? = us.getLast? := by
    rw [List.getLast?_append, List.getLast?_eq_some_getLast ne]
    rfl
  rw [endOf, endOf, List.find?_append, none, last]
  rfl

/-- Tokens without an end mark stand before that of those behind. -/
lemma beforeEnd_append_of_forall {ts : List Token} (noEnd : ∀ token ∈ ts, token.kind ≠ .eof)
    (us : List Token) : beforeEnd (ts ++ us) = ts ++ beforeEnd us :=
  List.takeWhile_append_of_pos fun token mem => decide_eq_true (noEnd token mem)

/-- Without an end mark, all tokens are read. -/
lemma beforeEnd_of_noEnd {ts : List Token} (noEnd : ∀ token ∈ ts, token.kind ≠ .eof) :
    beforeEnd ts = ts :=
  List.takeWhile_eq_self_iff.mpr fun token mem => decide_eq_true (noEnd token mem)

/-- A program goes on behind each declaration. -/
lemma declarations_of_recovered (eof : Token) {tokens rest : List Token} (ne : tokens ≠ [])
    {statement? : Option Stmt} {errors : List SyntaxError}
    (left : recovered (declaration eof tokens).result = (statement?, rest, errors)) :
    declarations eof tokens =
      (statement?.toList ++ (declarations eof rest).1, errors ++ (declarations eof rest).2) := by
  cases tokens with
  | nil => exact absurd rfl ne
  | cons token others => rw [declarations_cons, left]

/-- A block goes on behind what is left of its first declaration. -/
lemma block_of_recovered (eof : Token) {tokens rest : List Token} (ne : tokens ≠ [])
    (notBrace : ∀ token ∈ tokens.head?, token.kind ≠ .rightBrace) {statement? : Option Stmt}
    {errors : List SyntaxError}
    (left : recovered (declaration eof tokens).result = (statement?, rest, errors)) :
    (block eof tokens).result =
      ((block eof rest).result.map (statement?.toList ++ ·)).after errors := by
  cases tokens with
  | nil => exact absurd rfl ne
  | cons token others => rw [result_block_cons, if_neg (notBrace token rfl), left]

/-- A declaration that begins with a brace is a block. -/
lemma result_declaration_block (eof : Token) {start : Token} (opening : start.kind = .leftBrace)
    (tokens : List Token) :
    (declaration eof (start :: tokens)).result = (block eof tokens).result.map .block := by
  rw [result_declaration_cons, result_statement_cons, opening]
  rfl

end Parse

namespace Grammar

variable {ts rest : List Token} {program : Program}

/-- No `else` stands in front of declarations with none behind them. -/
lemma Declarations.noElse_append {forLoop : ForClauses → Stmt → Stmt}
    (h : Declarations forLoop ts program) (noElse : NoElse rest) : NoElse (ts ++ rest) := by
  cases h with
  | nil => exact noElse
  | cons first others =>
    rw [List.append_assoc]
    exact first.noElse _

/-- The parser reads what the grammar derives and goes on behind it. -/
lemma Declarations.declarations_append (eof : Token)
    (h : Declarations ForClauses.statement ts program) (noElse : NoElse rest) :
    declarations eof (ts ++ rest) =
      (program ++ (declarations eof rest).1, (declarations eof rest).2) := by
  induction h with
  | nil => rfl
  | @cons ts us s program first others ih =>
    have read := first.complete eof (us ++ rest) (others.noElse_append noElse)
    have ne : ts ++ (us ++ rest) ≠ [] := by
      obtain ⟨token, ts, rfl, _⟩ := first.first_mem
      exact List.cons_ne_nil _ _
    rw [List.append_assoc, declarations_of_recovered eof ne (congrArg recovered read), ih]
    rfl

/-- So it does in a block. -/
lemma Declarations.block_append (eof : Token)
    (h : Declarations ForClauses.statement ts program) (noElse : NoElse rest) :
    (Parse.block eof (ts ++ rest)).result = (Parse.block eof rest).result.map (program ++ ·) := by
  induction h with
  | nil => exact (Parsed.map_id _).symm
  | @cons ts us s program first others ih =>
    have read := first.complete eof (us ++ rest) (others.noElse_append noElse)
    obtain ⟨token, ts', eq, mem⟩ := first.first_mem
    have notBrace : ∀ first ∈ (ts ++ (us ++ rest)).head?, first.kind ≠ .rightBrace := by
      intro first isFirst
      rw [eq, List.cons_append, List.head?_cons, Option.mem_some] at isFirst
      exact isFirst ▸ ne_of_mem mem (by decide)
    have ne : ts ++ (us ++ rest) ≠ [] := by
      rw [eq]
      exact List.cons_ne_nil _ _
    rw [List.append_assoc, block_of_recovered eof ne notBrace (congrArg recovered read), ih]
    exact (Parsed.after_nil _).trans (Parsed.map_map _ _ _)

end Grammar

/-- Tokens without an end mark are all read. -/
lemma Program.parse_of_noEnd {tokens : List Token} (noEnd : ∀ token ∈ tokens, token.kind ≠ .eof) :
    Program.parse tokens =
      (Program.desugar (declarations (endOf tokens) tokens).1,
        (declarations (endOf tokens) tokens).2) := by
  rw [Program.parse, Program.parseLoops, beforeEnd_of_noEnd noEnd]

/-- What stands behind other tokens is read as it would be read alone. -/
lemma Program.declarations_behind {before : List Token}
    (noEnd : ∀ token ∈ before, token.kind ≠ .eof) (behind : List Token) :
    declarations (endOf (before ++ behind)) (beforeEnd behind) = Program.parseLoops behind := by
  by_cases nothing : behind = []
  · subst nothing
    exact (declarations_nil _).trans (declarations_nil _).symm
  · rw [endOf_append noEnd nothing, Program.parseLoops]

/-- A malformed statement: its only semicolon stands last, it has no braces, nothing inside it
starts a statement, it is no loop whose parts end with semicolons and no branch, and the parser
keeps nothing of it. -/
structure Malformed (tokens : List Token) : Prop where
  stops : ∃ ts stop, tokens = ts ++ [stop] ∧ stop.kind = .semicolon ∧
    ∀ token ∈ ts, token.kind ≠ .semicolon
  noBrace : ∀ token ∈ tokens, token.kind ≠ .leftBrace ∧ token.kind ≠ .rightBrace
  noEnd : ∀ token ∈ tokens, token.kind ≠ .eof
  noStart : ∀ token ∈ tokens.tail, token.kind.startsStatement = false
  first : ∀ token ∈ tokens.head?, token.kind ≠ .kwFor ∧ token.kind ≠ .kwElse
  dropped : (Program.parse tokens).1 = []

namespace Malformed

variable {tokens : List Token} (h : Malformed tokens)

include h

/-- A malformed statement has tokens. -/
lemma ne_nil : tokens ≠ [] := by
  obtain ⟨ts, stop, rfl, _⟩ := h.stops
  exact List.append_ne_nil_of_right_ne_nil _ (List.cons_ne_nil _ _)

/-- A malformed statement does not begin with an `else`. -/
lemma noElse (rest : List Token) : Grammar.NoElse (tokens ++ rest) := by
  cases tokens with
  | nil => exact absurd rfl h.ne_nil
  | cons token others => exact (h.first token rfl).2

/-- In front of its semicolon it is plain, and nothing starts a statement. -/
lemma inner {ts : List Token} {stop : Token} (eq : tokens = ts ++ [stop])
    (only : ∀ token ∈ ts, token.kind ≠ .semicolon) :
    Plain ts ∧ ∀ token ∈ ts.tail, token.kind.startsStatement = false := by
  subst eq
  have noStart : ∀ token ∈ ts.tail, token.kind.startsStatement = false := by
    intro token mem
    apply h.noStart
    cases ts with
    | nil => exact absurd mem List.not_mem_nil
    | cons first others => exact List.mem_append_left _ mem
  refine ⟨?_, noStart⟩
  intro token mem
  refine ⟨only token mem, (h.noBrace token (List.mem_append_left _ mem)).1, ?_⟩
  cases mem with
  | head others => exact (h.first token rfl).1
  | @tail first others mem =>
    intro isFor
    have starts := noStart token mem
    rw [isFor] at starts
    exact nomatch starts

/-- Whatever is behind it, it is dropped with its own errors, and reading resumes behind it. -/
lemma recovered_eq (eof : Token) (rest : List Token) :
    recovered (declaration eof (tokens ++ rest)).result =
      (none, rest, (Program.parse tokens).2) := by
  obtain ⟨ts, stop, eq, isStop, only⟩ := h.stops
  obtain ⟨plain, noStart⟩ := h.inner eq only
  have alone := Program.parse_of_noEnd h.noEnd
  rcases declaration_ends isStop plain with finishes | ⟨error, left, errors, behind, failed⟩
  · -- A statement that is done would have been kept.
    obtain ⟨value, errors, done⟩ := finishes (endOf tokens)
    rw [← eq] at done
    have kept := declarations_of_recovered (endOf tokens) h.ne_nil (congrArg recovered done)
    have dropped := h.dropped
    rw [alone, kept] at dropped
    exact nomatch dropped
  · have dropped : ∀ eof rest, recovered (declaration eof (tokens ++ rest)).result =
        (none, rest, errors ++ [error]) := by
      intro eof rest
      have resumes := resume_stop isStop (fun token mem => only token (behind.subset mem))
        (fun token mem => noStart token (mem_tail_of_suffix behind mem)) rest
      rw [eq, List.append_assoc]
      apply (congrArg recovered (failed eof rest)).trans
      exact congrArg (fun tokens => (none, tokens, errors ++ [error])) resumes
    have own := dropped (endOf tokens) []
    rw [List.append_nil] at own
    rw [dropped, alone, declarations_of_recovered _ h.ne_nil own, declarations_nil]
    simp

/-- A program goes on behind it. -/
lemma declarations_append (eof : Token) (rest : List Token) :
    declarations eof (tokens ++ rest) =
      ((declarations eof rest).1, (Program.parse tokens).2 ++ (declarations eof rest).2) :=
  declarations_of_recovered eof (List.append_ne_nil_of_left_ne_nil h.ne_nil _)
    (h.recovered_eq eof rest)

/-- So does a block. -/
lemma block_append (eof : Token) (rest : List Token) :
    (block eof (tokens ++ rest)).result =
      (block eof rest).result.after (Program.parse tokens).2 := by
  have notBrace : ∀ token ∈ (tokens ++ rest).head?, token.kind ≠ .rightBrace := by
    intro token mem
    cases tokens with
    | nil => exact absurd rfl h.ne_nil
    | cons first others => exact (h.noBrace token (List.mem_of_mem_head? mem)).2
  rw [block_of_recovered eof (List.append_ne_nil_of_left_ne_nil h.ne_nil _) notBrace
    (h.recovered_eq eof rest)]
  exact congrArg (Parsed.after _) (Parsed.map_id _)

end Malformed

/-- What is read without errors is derived, and read in front of anything. -/
lemma Program.exists_derived {tokens : List Token} (noEnd : ∀ token ∈ tokens, token.kind ≠ .eof)
    (clean : (Program.parse tokens).2 = []) :
    ∃ program, Grammar.Declarations ForClauses.statement tokens program ∧
      (Program.parse tokens).1 = program.map Stmt.desugar := by
  rw [Program.parse_of_noEnd noEnd] at clean ⊢
  have read : declarations (endOf tokens) tokens =
      ((declarations (endOf tokens) tokens).1, []) := Prod.ext rfl clean
  exact ⟨_, (Grammar.declarations_iff _).mp read, Stmt.desugarAll_eq_map _⟩

section

variable {before malformed behind : List Token} (noEnd : ∀ token ∈ before, token.kind ≠ .eof)
  (clean : (Program.parse before).2 = []) (h : Malformed malformed)

include noEnd clean h

/-- A malformed statement in a program is dropped, and nothing else is. -/
lemma Program.parse_malformed (behind : List Token) :
    Program.parse (before ++ malformed ++ behind) =
      ((Program.parse before).1 ++ (Program.parse behind).1,
        (Program.parse malformed).2 ++ (Program.parse behind).2) := by
  obtain ⟨program, derived, read⟩ := Program.exists_derived noEnd clean
  have ends : ∀ token ∈ before ++ malformed, token.kind ≠ .eof :=
    List.forall_mem_append.mpr ⟨noEnd, h.noEnd⟩
  have own := Program.declarations_behind ends behind
  have whole : Program.parseLoops (before ++ malformed ++ behind) =
      (program ++ (Program.parseLoops behind).1,
        (Program.parse malformed).2 ++ (Program.parseLoops behind).2) := by
    rw [Program.parseLoops, beforeEnd_append_of_forall ends,
      List.append_assoc before malformed (beforeEnd behind),
      derived.declarations_append _ (h.noElse _), h.declarations_append, own]
  rw [Program.parse_eq, whole, read, Program.parse_eq behind]
  exact Prod.ext List.map_append rfl

/-- So it is in a block. -/
lemma Program.parse_malformed_block {start stop : Token} (opening : start.kind = .leftBrace)
    (closing : stop.kind = .rightBrace) (noEnd' : ∀ token ∈ behind, token.kind ≠ .eof)
    (clean' : (Program.parse behind).2 = []) :
    Program.parse (start :: (before ++ malformed ++ behind ++ [stop])) =
      ([.block ((Program.parse before).1 ++ (Program.parse behind).1)],
        (Program.parse malformed).2) := by
  obtain ⟨program, derived, read⟩ := Program.exists_derived noEnd clean
  obtain ⟨program', derived', read'⟩ := Program.exists_derived noEnd' clean'
  have ends : ∀ token ∈ start :: (before ++ malformed ++ behind ++ [stop]),
      token.kind ≠ .eof := by
    simp only [List.forall_mem_cons, List.forall_mem_append, opening, closing]
    exact ⟨by decide, ⟨⟨noEnd, h.noEnd⟩, noEnd'⟩, by decide, List.forall_mem_nil _⟩
  have last : ∀ eof, (block eof (behind ++ [stop])).result = .done program' [] [] := by
    intro eof
    have whole := (derived'.body closing).complete eof []
    rw [List.append_nil] at whole
    exact whole
  have body : ∀ eof, (block eof (before ++ malformed ++ behind ++ [stop])).result =
      .done (program ++ program') [] (Program.parse malformed).2 := by
    intro eof
    rw [List.append_assoc, List.append_assoc, derived.block_append eof (h.noElse _),
      h.block_append, last]
    simp [Parsed.map, Parsed.bind, Parsed.after]
  have whole : ∀ eof, recovered (declaration eof
      (start :: (before ++ malformed ++ behind ++ [stop]))).result =
        (some (.block (program ++ program')), [], (Program.parse malformed).2) := by
    intro eof
    rw [result_declaration_block eof opening, body]
    simp [Parsed.map, Parsed.bind, Parsed.after, recovered]
  rw [Program.parse_of_noEnd ends,
    declarations_of_recovered _ (List.cons_ne_nil _ _) (whole _), declarations_nil, read, read',
    ← List.map_append, ← Stmt.desugarAll_eq_map]
  exact Prod.ext rfl (List.append_nil _)

/-- Of a malformed statement only its errors are left. A program is read in front of it and behind
it as if it had not been there, with its errors in between, and so is a block. -/
theorem Program.recovery_is_local (behind : List Token) :
    Program.parse (before ++ malformed ++ behind) =
      ((Program.parse before).1 ++ (Program.parse behind).1,
        (Program.parse malformed).2 ++ (Program.parse behind).2) ∧
    ∀ start stop : Token, start.kind = .leftBrace → stop.kind = .rightBrace →
      (∀ token ∈ behind, token.kind ≠ .eof) → (Program.parse behind).2 = [] →
      Program.parse (start :: (before ++ malformed ++ behind ++ [stop])) =
        ([.block ((Program.parse before).1 ++ (Program.parse behind).1)],
          (Program.parse malformed).2) := by
  refine ⟨Program.parse_malformed noEnd clean h behind, ?_⟩
  intro start stop opening closing noEnd' clean'
  exact Program.parse_malformed_block noEnd clean h opening closing noEnd' clean'

end

/-- The tokens of `print (;`, which are malformed. -/
def Program.unclosed : List Token :=
  [⟨.kwPrint, "print", none, 1, ⟨0, 5⟩⟩, ⟨.leftParen, "(", none, 1, ⟨6, 1⟩⟩,
    ⟨.semicolon, ";", none, 1, ⟨7, 1⟩⟩]

/-- The tokens of `print (;` are a malformed statement. -/
lemma Program.malformed_unclosed : Malformed Program.unclosed where
  stops := ⟨[⟨.kwPrint, "print", none, 1, ⟨0, 5⟩⟩, ⟨.leftParen, "(", none, 1, ⟨6, 1⟩⟩],
    ⟨.semicolon, ";", none, 1, ⟨7, 1⟩⟩, rfl, rfl, by decide⟩
  noBrace := by decide
  noEnd := by decide
  noStart := by decide
  first := by decide
  dropped := by cbv

/-- Between two programs, only an error is left of them, also in a block. -/
theorem Program.recovery_around_unclosed :
    (∀ token ∈ Program.nestedBranches, token.kind ≠ .eof) ∧
    (Program.parse Program.nestedBranches).2 = [] ∧ Malformed Program.unclosed ∧
    ∃ loop,
      Program.parse (Program.nestedBranches ++ Program.unclosed ++ Program.nestedBranches) =
        ([loop, loop], [⟨.noExpression, ⟨.semicolon, ";", none, 1, ⟨7, 1⟩⟩⟩]) ∧
      Program.parse (⟨.leftBrace, "\x7b", none, 1, ⟨0, 1⟩⟩ ::
          (Program.nestedBranches ++ Program.unclosed ++ Program.nestedBranches ++
            [⟨.rightBrace, "\x7d", none, 1, ⟨8, 1⟩⟩])) =
        ([.block [loop, loop]], [⟨.noExpression, ⟨.semicolon, ";", none, 1, ⟨7, 1⟩⟩⟩]) := by
  have noEnd : ∀ token ∈ Program.nestedBranches, token.kind ≠ .eof := by decide
  obtain ⟨loop, read⟩ : ∃ loop, Program.parse Program.nestedBranches = ([loop], []) :=
    ⟨_, by cbv⟩
  have clean : (Program.parse Program.nestedBranches).2 = [] := congrArg Prod.snd read
  have own : (Program.parse Program.unclosed).2 =
      [⟨.noExpression, ⟨.semicolon, ";", none, 1, ⟨7, 1⟩⟩⟩] := by cbv
  obtain ⟨inProgram, inBlock⟩ := Program.recovery_is_local noEnd clean
    Program.malformed_unclosed Program.nestedBranches
  refine ⟨noEnd, clean, Program.malformed_unclosed, loop, ?_, ?_⟩
  · rw [inProgram, own, read]
    rfl
  · rw [inBlock _ _ rfl rfl noEnd clean, own, read]
    rfl

end Lox
