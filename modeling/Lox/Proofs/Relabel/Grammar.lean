import Lox.Proofs.Grammar.Programs
import Lox.Proofs.Relabel.Basic

/-!
# Relabelled derivations

The grammar looks at the kinds of tokens and at the values they carry. A relabelling that keeps both
takes derivations to derivations of the relabelled trees.
-/

namespace Lox

section

variable (r : Relabelling)

/-- What becomes of a token. The identifiers stand for names. -/
def Relabelling.token (t : Token) : Token :=
  if t.kind = .identifier then r.name t else r.mark t

/-- Tokens keep their kinds and values. -/
structure Relabelling.Faithful : Prop where
  name_kind (t : Token) : (r.name t).kind = t.kind
  name_literal (t : Token) : (r.name t).literal = t.literal
  mark_kind (t : Token) : (r.mark t).kind = t.kind
  mark_literal (t : Token) : (r.mark t).literal = t.literal

/-- The relabelled loop is the loop of relabelled parts. -/
def Relabelling.Keeps (forLoop : ForClauses → Stmt → Stmt) : Prop :=
  ∀ clauses body, (forLoop clauses body).relabel r = forLoop (clauses.relabel r) (body.relabel r)

/-- Desugared loops are relabelled part by part. -/
lemma Relabelling.keeps_whileLoop : r.Keeps ForClauses.whileLoop := by
  rintro ⟨initializer, condition, increment⟩ body
  cases initializer <;> cases condition <;> cases increment <;> rfl

end

namespace Relabelling

variable {r : Relabelling} {t : Token}

/-- An identifier is a name. -/
lemma token_of_identifier (kind : t.kind = .identifier) : r.token t = r.name t :=
  if_pos kind

/-- No other token is. -/
lemma token_of_ne (kind : t.kind ≠ .identifier) : r.token t = r.mark t :=
  if_neg kind

namespace Faithful

variable (h : r.Faithful)

include h

/-- Tokens keep their kinds. -/
lemma token_kind (t : Token) : (r.token t).kind = t.kind := by
  rw [token]
  split
  · exact h.name_kind t
  · exact h.mark_kind t

/-- Tokens keep their values. -/
lemma token_literal (t : Token) : (r.token t).literal = t.literal := by
  rw [token]
  split
  · exact h.name_literal t
  · exact h.mark_literal t

/-- A token that had to be of a kind still is. -/
lemma kind {k : Kind} (kind : t.kind = k) : (r.token t).kind = k :=
  (h.token_kind t).trans kind

end Faithful

end Relabelling

namespace Grammar

variable {r : Relabelling} (h : r.Faithful)

include h

/-- A literal is read from the relabelled token. -/
lemma Literal.relabel {t : Token} {atom : Atom} (d : Literal t atom) :
    Literal (r.token t) atom := by
  cases d with
  | number kind value => exact .number (h.kind kind) ((h.token_literal t).trans value)
  | string kind value => exact .string (h.kind kind) ((h.token_literal t).trans value)
  | true kind => exact .true (h.kind kind)
  | false kind => exact .false (h.kind kind)
  | nil kind => exact .nil (h.kind kind)

/-- A prefix operator is read from the relabelled token, which is no name. -/
lemma Unary.relabel {t : Token} {op : PrefixOp} (d : Unary t.kind op) :
    Unary (r.token t).kind op ∧ r.token t = r.mark t := by
  rw [h.token_kind]
  refine ⟨d, Relabelling.token_of_ne fun kind => ?_⟩
  rw [kind] at d
  cases d

/-- The tokens of operators that evaluate both sides stay so, and are no names. -/
lemma Binary.relabel {level : Level} {t : Token} {op : BinaryOp} (d : Binary level t.kind op) :
    Binary level (r.token t).kind op ∧ r.token t = r.mark t := by
  rw [h.token_kind]
  refine ⟨d, Relabelling.token_of_ne fun kind => ?_⟩
  rw [kind] at d
  cases d

/-- The tokens of operators that may leave their right side alone stay so, and are no names. -/
lemma Logical.relabel {level : Level} {t : Token} {op : LogicalOp} (d : Logical level t.kind op) :
    Logical level (r.token t).kind op ∧ r.token t = r.mark t := by
  rw [h.token_kind]
  refine ⟨d, Relabelling.token_of_ne fun kind => ?_⟩
  rw [kind] at d
  cases d

omit h in
/-- A token of a kind that is not that of names is none. -/
lemma token_eq_mark {t : Token} {k : Kind} (kind : t.kind = k) (other : k ≠ .identifier) :
    r.token t = r.mark t :=
  Relabelling.token_of_ne (kind ▸ other)

mutual

/-- Relabelled tokens derive the relabelled expression. -/
lemma Expression.relabel {level : Level} {ts : List Token} {e : Expr}
    (d : Expression level ts e) : Expression level (ts.map r.token) (e.relabel r) := by
  match d with
  | .literal atom => exact .literal (atom.relabel h)
  | .name kind =>
    rw [Expr.relabel, ← Relabelling.token_of_identifier kind]
    exact .name (h.kind kind)
  | .group start inner stop =>
    rw [List.map_cons, List.map_append]
    exact .group (h.kind start) inner.relabel (h.kind stop)
  | .callNone callee start stop =>
    rw [List.map_append, Expr.relabel, ← token_eq_mark stop nofun]
    exact .callNone callee.relabel (h.kind start) (h.kind stop)
  | .callSome callee start all few stop =>
    rw [List.map_append, List.map_cons, List.map_append, Expr.relabel, ← token_eq_mark stop nofun]
    refine .callSome callee.relabel (h.kind start) all.relabel ?_ (h.kind stop)
    rw [Expr.relabelAll_eq, List.length_map]
    exact few
  | .unary op operand =>
    obtain ⟨op', mark⟩ := op.relabel h
    rw [List.map_cons, Expr.relabel, ← mark]
    exact .unary op' operand.relabel
  | .binary left op right =>
    obtain ⟨op', mark⟩ := op.relabel h
    rw [List.map_append, List.map_cons, Expr.relabel, ← mark]
    exact .binary left.relabel op' right.relabel
  | .logical left op right =>
    obtain ⟨op', mark⟩ := op.relabel h
    rw [List.map_append, List.map_cons, Expr.relabel, ← mark]
    exact .logical left.relabel op' right.relabel
  | .assign name equal value =>
    rw [List.map_cons, List.map_cons, Expr.relabel, ← Relabelling.token_of_identifier name]
    exact .assign (h.kind name) (h.kind equal) value.relabel
  | .tighter inner => exact .tighter inner.relabel

/-- Relabelled arguments are derived from the relabelled tokens. -/
lemma Arguments.relabel {ts : List Token} {es : List Expr} (d : Arguments ts es) :
    Arguments (ts.map r.token) (Expr.relabelAll r es) := by
  match d with
  | .last e => exact .last e.relabel
  | .more e comma others =>
    rw [List.map_append, List.map_cons]
    exact .more e.relabel (h.kind comma) others.relabel

end

/-- A relabelled expression that may be missing is derived from the relabelled tokens. -/
lemma Optional.relabel {ts : List Token} {e? : Option Expr} (d : Optional ts e?) :
    Optional (ts.map r.token) (e?.map (Expr.relabel r)) := by
  cases d with
  | none => exact .none
  | some e => exact .some (e.relabel h)

/-- A relabelled condition is derived from the relabelled tokens. -/
lemma Condition.relabel {ts : List Token} {e : Expr} (d : Condition ts e) :
    Condition (ts.map r.token) (e.relabel r) := by
  obtain ⟨start, inner, stop⟩ := d
  rw [List.map_cons, List.map_append]
  exact .mk (h.kind start) (inner.relabel h) (h.kind stop)

/-- The relabelled rest of a variable declaration is derived from the relabelled tokens. -/
lemma Variable.relabel {ts : List Token} {s : Stmt} (d : Variable ts s) :
    Variable (ts.map r.token) (s.relabel r) := by
  cases d with
  | none name stop =>
    rw [Stmt.relabel, ← Relabelling.token_of_identifier name]
    exact .none (h.kind name) (h.kind stop)
  | some name equal value stop =>
    rw [List.map_cons, List.map_cons, List.map_append, Stmt.relabel,
      ← Relabelling.token_of_identifier name]
    exact .some (h.kind name) (h.kind equal) (value.relabel h) (h.kind stop)

/-- Relabelled names are derived from the relabelled tokens. -/
lemma Names.relabel {ts names : List Token} (d : Names ts names) :
    Names (ts.map r.token) (names.map r.name) := by
  induction d with
  | last name =>
    rw [List.map_singleton, List.map_singleton, ← Relabelling.token_of_identifier name]
    exact .last (h.kind name)
  | more name comma _ ih =>
    rw [List.map_cons, List.map_cons, List.map_cons, ← Relabelling.token_of_identifier name]
    exact .more (h.kind name) (h.kind comma) ih

/-- Relabelled parameters are derived from the relabelled tokens. -/
lemma Parameters.relabel {ts names : List Token} (d : Parameters ts names) :
    Parameters (ts.map r.token) (names.map r.name) := by
  cases d with
  | none => exact .none
  | some listed few =>
    refine .some (listed.relabel h) ?_
    rw [List.length_map]
    exact few

/-- The relabelled initializer of a loop is derived from the relabelled tokens. -/
lemma Initializer.relabel {ts : List Token} {s? : Option Stmt} (d : Initializer ts s?) :
    Initializer (ts.map r.token) (s?.map (Stmt.relabel r)) := by
  cases d with
  | none stop => exact .none (h.kind stop)
  | var keyword rest => exact .var (h.kind keyword) (rest.relabel h)
  | expression e stop =>
    rw [List.map_append]
    exact .expression (e.relabel h) (h.kind stop)

/-- The relabelled parts of a loop are derived from the relabelled tokens. -/
lemma Clauses.relabel {ts : List Token} {clauses : ForClauses} (d : Clauses ts clauses) :
    Clauses (ts.map r.token) (clauses.relabel r) := by
  obtain ⟨start, initializer, condition, semicolon, increment, stop⟩ := d
  rw [List.map_cons, List.map_append, List.map_append, List.map_cons, List.map_append]
  exact .mk (h.kind start) (initializer.relabel h) (condition.relabel h) (h.kind semicolon)
    (increment.relabel h) (h.kind stop)

variable {forLoop : ForClauses → Stmt → Stmt}

mutual

/-- Relabelled tokens derive the relabelled statement. -/
lemma Statement.relabel {ending : Ending} {ts : List Token} {s : Stmt} (keeps : r.Keeps forLoop)
    (d : Statement forLoop ending ts s) :
    Statement forLoop ending (ts.map r.token) (s.relabel r) := by
  match d with
  | .expression e stop =>
    rw [List.map_append]
    exact .expression (e.relabel h) (h.kind stop)
  | .print keyword e stop =>
    rw [List.map_cons, List.map_append]
    exact .print (h.kind keyword) (e.relabel h) (h.kind stop)
  | .ret keyword value stop =>
    rw [List.map_cons, List.map_append, Stmt.relabel, ← token_eq_mark keyword nofun]
    exact .ret (h.kind keyword) (value.relabel h) (h.kind stop)
  | .block start body => exact .block (h.kind start) (body.relabel keeps)
  | .ifThen keyword condition branch =>
    rw [List.map_cons, List.map_append]
    exact .ifThen (h.kind keyword) (condition.relabel h) (branch.relabel keeps)
  | .ifElse keyword condition thenBranch other elseBranch =>
    rw [List.map_cons, List.map_append, List.map_append, List.map_cons]
    exact .ifElse (h.kind keyword) (condition.relabel h) (thenBranch.relabel keeps) (h.kind other)
      (elseBranch.relabel keeps)
  | .whileLoop keyword condition body =>
    rw [List.map_cons, List.map_append]
    exact .whileLoop (h.kind keyword) (condition.relabel h) (body.relabel keeps)
  | .forLoop keyword clauses body =>
    rw [List.map_cons, List.map_append, keeps]
    exact .forLoop (h.kind keyword) (clauses.relabel h) (body.relabel keeps)

/-- A relabelled declaration is derived from the relabelled tokens. -/
lemma Declaration.relabel {ts : List Token} {s : Stmt} (keeps : r.Keeps forLoop)
    (d : Declaration forLoop ts s) :
    Declaration forLoop (ts.map r.token) (s.relabel r) := by
  match d with
  | .var keyword rest => exact .var (h.kind keyword) (rest.relabel h)
  | .function keyword name start parameters stop brace body =>
    rw [List.map_cons, List.map_cons, List.map_cons, List.map_append, List.map_cons, List.map_cons,
      Stmt.relabel, ← Relabelling.token_of_identifier name]
    exact .function (h.kind keyword) (h.kind name) (h.kind start) (parameters.relabel h)
      (h.kind stop) (h.kind brace) (body.relabel keeps)
  | .statement inner => exact .statement (inner.relabel keeps)

/-- The relabelled declarations of a block are derived from the relabelled tokens. -/
lemma Block.relabel {ts : List Token} {ss : List Stmt} (keeps : r.Keeps forLoop)
    (d : Block forLoop ts ss) :
    Block forLoop (ts.map r.token) (Stmt.relabelAll r ss) := by
  match d with
  | .nil stop => exact .nil (h.kind stop)
  | .cons first others =>
    rw [List.map_append]
    exact .cons (first.relabel keeps) (others.relabel keeps)

end

/-- Relabelled tokens derive the relabelled program. -/
lemma Declarations.relabel {ts : List Token} {program : Program} (keeps : r.Keeps forLoop)
    (d : Declarations forLoop ts program) :
    Declarations forLoop (ts.map r.token) (Stmt.relabelAll r program) := by
  induction d with
  | nil => exact .nil
  | cons first _ ih =>
    rw [List.map_append]
    exact .cons (first.relabel h keeps) ih

end Grammar

end Lox
