import Lox.Proofs.Listing.Unique
import Lox.Proofs.Session.Faults
import Lox.Proofs.Unparse.Genuine

/-!
# Programs by their listings

A program that was read from a source is genuine, and its tokens are those of the source. So it is
spelled as it is listed if its literals are plain, and its S-expressions lose nothing but the places
of its tokens.
-/

namespace Lox

mutual

/-- The literals of an expression. -/
def Expr.atoms : Expr → List Atom
  | .literal atom => [atom]
  | .group inner => inner.atoms
  | .ident _ => []
  | .assign _ value => value.atoms
  | .unary _ _ operand => operand.atoms
  | .binary _ _ left right => left.atoms ++ right.atoms
  | .logical _ _ left right => left.atoms ++ right.atoms
  | .call callee _ arguments => callee.atoms ++ Expr.atomsAll arguments

/-- The literals of expressions. -/
def Expr.atomsAll : List Expr → List Atom
  | [] => []
  | e :: rest => e.atoms ++ Expr.atomsAll rest

end

mutual

/-- The literals of a statement. -/
def Stmt.atoms : Stmt → List Atom
  | .var _ initializer => Expr.atomsAll initializer.toList
  | .function _ _ body => Stmt.atomsAll body
  | .expression e => e.atoms
  | .print e => e.atoms
  | .block body => Stmt.atomsAll body
  | .ifThen condition thenBranch => condition.atoms ++ thenBranch.atoms
  | .ifElse condition thenBranch elseBranch =>
    condition.atoms ++ (thenBranch.atoms ++ elseBranch.atoms)
  | .loop condition step body => condition.atoms ++ (Expr.atomsAll step.toList ++ body.atoms)
  | .ret _ value => Expr.atomsAll value.toList

/-- The literals of statements. -/
def Stmt.atomsAll : List Stmt → List Atom
  | [] => []
  | s :: rest => s.atoms ++ Stmt.atomsAll rest

end

/-- Rules describe the tokens, and the literals are plain. -/
structure Shown (tokens : List Token) (atoms : List Atom) : Prop where
  ruled : ∀ t ∈ tokens, t.kind ≠ .eof → t.Ruled
  plain : ∀ a ∈ atoms, a.Plain

namespace Shown

variable {token : Token} {kind : Kind} {tokens tokens' : List Token} {atoms atoms' : List Atom}

/-- A token in front of the others is described by a rule, unless it is an end mark. -/
lemma head (h : Shown (token :: tokens) atoms) (inner : token.kind ≠ .eof) : token.Ruled :=
  h.ruled token List.mem_cons_self inner

/-- The tokens behind the first one are shown with the same literals. -/
lemma tail (h : Shown (token :: tokens) atoms) : Shown tokens atoms :=
  ⟨fun t mem => h.ruled t (List.mem_cons_of_mem _ mem), h.plain⟩

/-- Both parts of the tokens are shown with their literals. -/
lemma split (h : Shown (tokens ++ tokens') (atoms ++ atoms')) :
    Shown tokens atoms ∧ Shown tokens' atoms' := by
  obtain ⟨ruled, plain⟩ := h
  rw [List.forall_mem_append] at ruled plain
  exact ⟨⟨ruled.1, plain.1⟩, ⟨ruled.2, plain.2⟩⟩

/-- An identifier in front is a name. -/
lemma isName (h : Shown (token :: tokens) atoms) (kind : token.kind = .identifier) :
    token.IsName :=
  ⟨kind, h.head (by rw [kind]; decide)⟩

/-- A token of a kind with one spelling is spelled so. -/
lemma isMark (h : Shown (token :: tokens) atoms) (single : kind.Single ∧ kind ≠ .eof)
    (eq : token.kind = kind) : token.IsMark kind :=
  ⟨single.1, eq, h.head (eq ▸ single.2)⟩

end Shown

section

variable {level : Grammar.Level} {kind : Kind}

/-- The operators of unary expressions have one spelling. -/
lemma Grammar.Unary.single {op : PrefixOp} (h : Grammar.Unary kind op) :
    kind.Single ∧ kind ≠ .eof := by
  cases h <;> decide

/-- The operators that evaluate both sides have one spelling. -/
lemma Grammar.Binary.single {op : BinaryOp} (h : Grammar.Binary level kind op) :
    kind.Single ∧ kind ≠ .eof := by
  cases h <;> decide

/-- The operators that may leave their right side alone have one spelling. -/
lemma Grammar.Logical.single {op : LogicalOp} (h : Grammar.Logical level kind op) :
    kind.Single ∧ kind ≠ .eof := by
  cases h <;> decide

end

/-- What holds of shown expressions one by one holds of all. -/
lemma Expr.spelledAll {es : List Expr} (shown : Shown (tokensAll es) (atomsAll es))
    (all : ∀ e ∈ es, Shown e.tokens e.atoms → e.Spelled) : SpelledAll es := by
  induction es with
  | nil => exact trivial
  | cons e rest ih =>
    obtain ⟨first, others⟩ := List.forall_mem_cons.mp all
    exact ⟨first shown.split.1, ih shown.split.2 others⟩

/-- Statements that are shown are spelled if each of them is. -/
lemma Stmt.spelledAll {ss : List Stmt} (shown : Shown (tokensAll ss) (atomsAll ss))
    (all : ∀ s ∈ ss, Shown s.tokens s.atoms → s.Spelled) : SpelledAll ss := by
  induction ss with
  | nil => exact trivial
  | cons s rest ih =>
    obtain ⟨first, others⟩ := List.forall_mem_cons.mp all
    exact ⟨first shown.split.1, ih shown.split.2 others⟩

/-- A genuine expression is spelled as it is listed. -/
lemma Expr.Genuine.spelled {level : Grammar.Level} {e : Expr} (h : e.Genuine level)
    (shown : Shown e.tokens e.atoms) : e.Spelled := by
  induction h with
  | literal atom => exact shown.plain atom (List.mem_singleton_self atom)
  | ident isName => exact shown.isName isName
  | group _ ih => exact ih shown
  | call _ closing _ callee all =>
    have parts := shown.tail.split
    exact ⟨shown.isMark (by decide) closing, callee parts.1, spelledAll parts.2 all⟩
  | unary isOp _ ih => exact ⟨⟨_, isOp, shown.isMark isOp.single rfl⟩, ih shown.tail⟩
  | binary _ isOp _ left right =>
    have parts := shown.tail.split
    exact ⟨⟨_, ⟨_, isOp⟩, shown.isMark isOp.single rfl⟩, left parts.1, right parts.2⟩
  | logical _ isOp _ left right =>
    have parts := shown.tail.split
    exact ⟨⟨_, ⟨_, isOp⟩, shown.isMark isOp.single rfl⟩, left parts.1, right parts.2⟩
  | assign isName _ ih => exact ⟨shown.isName isName, ih shown.tail⟩
  | tighter _ ih => exact ih shown

/-- A genuine statement is spelled as it is listed. -/
lemma Stmt.Genuine.spelled {s : Stmt} {role : Role} (h : s.Genuine role)
    (shown : Shown s.tokens s.atoms) : s.Spelled := by
  induction h with
  | var isName genuine =>
    exact ⟨shown.isName isName, Expr.spelledAll shown.tail fun e mem shown =>
      (genuine e (Option.mem_toList.mp mem)).spelled shown⟩
  | @function name parameters body isName areNames _ all =>
    have parts : Shown parameters [] ∧ Shown (tokensAll body) (atomsAll body) := shown.tail.split
    refine ⟨shown.isName isName, fun p mem => ?_, spelledAll parts.2 all⟩
    exact ⟨areNames p mem, parts.1.ruled p mem (by rw [areNames p mem]; decide)⟩
  | among _ ih => exact ih shown
  | expression genuine | print genuine => exact genuine.spelled shown
  | block _ all => exact spelledAll shown all
  | ifThen genuine _ ih => exact ⟨genuine.spelled shown.split.1, ih shown.split.2⟩
  | ifElse genuine _ _ first second =>
    have branches := shown.split.2.split
    exact ⟨genuine.spelled shown.split.1, first branches.1, second branches.2⟩
  | loop genuine _ ih => exact ⟨rfl, genuine.spelled shown.split.1, ih shown.split.2⟩
  | ret kind genuine =>
    exact ⟨shown.isMark (by decide) kind, Expr.spelledAll shown.tail fun e mem shown =>
      (genuine e (Option.mem_toList.mp mem)).spelled shown⟩

/-- A program from a source is spelled as it is listed if its literals are plain. -/
lemma Program.ofSource_spelled {source : String}
    (plain : ∀ a ∈ Stmt.atomsAll (Program.ofSource source).1, a.Plain) :
    Stmt.SpelledAll (Program.ofSource source).1 := by
  have genuine : Program.Genuine (Program.ofSource source).1 := Program.parse_genuine _
  have scanned := (Program.ofSource_drawn source).1
  have shown : Shown (Stmt.tokensAll (Program.ofSource source).1)
      (Stmt.atomsAll (Program.ofSource source).1) :=
    ⟨fun t mem inner => Token.ruled_of_mem (scanned t mem) inner, plain⟩
  exact Stmt.spelledAll shown fun s mem shown => (genuine s mem).spelled shown

/-- A program is listed as the S-expressions of its statements, on lines of their own. -/
lemma Program.text_sexpr (program : Program) :
    program.text .sexpr = "\n".intercalate ((Stmt.forms program).map Form.text) := by
  rw [Program.text, ← Form.texts_eq_map, Stmt.texts_forms]
  congr 1
  induction program with
  | nil => rfl
  | cons s rest ih => rw [List.map_cons, ih, Stmt.sexprs, Stmt.text]

/-- Programs without strings and infinite numbers are listed alike as S-expressions if and only if
they are the same but for places, whatever names occur in them. -/
theorem Program.text_sexpr_eq_iff {source source' : String}
    (plain : ∀ a ∈ Stmt.atomsAll (Program.ofSource source).1, a.Plain)
    (plain' : ∀ a ∈ Stmt.atomsAll (Program.ofSource source').1, a.Plain) :
    Program.text .sexpr (Program.ofSource source).1 =
        Program.text .sexpr (Program.ofSource source').1 ↔
      Stmt.relabelAll .bare (Program.ofSource source).1 =
        Stmt.relabelAll .bare (Program.ofSource source').1 := by
  have spelled := Program.ofSource_spelled plain
  have spelled' := Program.ofSource_spelled plain'
  rw [text_sexpr, text_sexpr]
  constructor
  · intro same
    cases Stmt.proper_forms _ spelled with
    | list proper =>
      cases Stmt.proper_forms _ spelled' with
      | list proper' =>
        exact Stmt.bare_eq_of_forms _ _ spelled spelled' (Form.eq_of_lines proper proper' same)
  · intro same
    rw [← Stmt.forms_bare, same, Stmt.forms_bare]

/-- Declarations of names that look like first words of S-expressions. -/
def namedLikeForms : String :=
  "var call = -group - block; if (call(nil)) print group; else while (true) call = block;"

/-- The same declarations in other lines. -/
def namedLikeFormsElsewhere : String :=
  "var call = // (group)\n-group-block;\nif(call(nil))print group;else\nwhile(true)\ncall=block;"

/-- Names that look like first words are no obstacle: the declarations are equal but for places. -/
theorem Program.namedLikeForms_bare_eq :
    (∀ a ∈ Stmt.atomsAll (Program.ofSource namedLikeForms).1, a.Plain) ∧
    (∀ a ∈ Stmt.atomsAll (Program.ofSource namedLikeFormsElsewhere).1, a.Plain) ∧
    Stmt.relabelAll .bare (Program.ofSource namedLikeForms).1 =
      Stmt.relabelAll .bare (Program.ofSource namedLikeFormsElsewhere).1 := by
  have plain : ∀ a ∈ [Atom.nil, Atom.boolean true], a.Plain := by simp [Atom.Plain]
  have atoms : Stmt.atomsAll (Program.ofSource namedLikeForms).1 = [.nil, .boolean true] := by cbv
  have atoms' : Stmt.atomsAll (Program.ofSource namedLikeFormsElsewhere).1 =
      [.nil, .boolean true] := by cbv
  have plain₁ := atoms.symm ▸ plain
  have plain₂ := atoms'.symm ▸ plain
  exact ⟨plain₁, plain₂, (Program.text_sexpr_eq_iff plain₁ plain₂).mp (by cbv)⟩

end Lox
