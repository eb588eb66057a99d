import Lox.Proofs.Relabel.Evaluate
import Lox.Proofs.Relabel.Grammar
import Lox.Proofs.Scan.Lines

/-!
# Programs without places

Where a token stands in a source has no influence on what a program does. Two programs whose tokens
differ in their places only are the same program without places, and so are the machines that run
them.
-/

namespace Lox

/-- The token without its place. -/
def Token.bare (t : Token) : Token :=
  { t with line := 0, span := ⟨0, 0⟩ }

/-- A token without its place has its text. -/
lemma Token.lexeme_bare (t : Token) : t.bare.lexeme = t.lexeme :=
  rfl

/-- A token in another place has its text. -/
lemma Token.lexeme_shift (bytes lines : Nat) (t : Token) :
    (t.shift bytes lines).lexeme = t.lexeme :=
  rfl

namespace Relabelling

section

variable (f : Token → Token) (lexeme : ∀ t, (f t).lexeme = t.lexeme)

/-- The relabelling that treats all tokens alike and renames nothing. -/
def uniform : Relabelling where
  rename := id
  name := f
  mark := f
  injective := Function.injective_id
  lexeme := lexeme

/-- All tokens are treated alike. -/
lemma uniform_token : (uniform f lexeme).token = f := by
  funext t
  exact ite_self _

end

/-- The relabelling that forgets places. -/
def bare : Relabelling :=
  uniform Token.bare Token.lexeme_bare

/-- The relabelling that moves everything further on. -/
def moved (bytes lines : Nat) : Relabelling :=
  uniform (Token.shift bytes lines) (Token.lexeme_shift bytes lines)

/-- Every token loses its place. -/
lemma bare_token : bare.token = Token.bare :=
  uniform_token _ _

/-- All tokens are moved by the same bytes and lines. -/
lemma moved_token (bytes lines : Nat) : (moved bytes lines).token = Token.shift bytes lines :=
  uniform_token _ _

/-- Without its place, a token is still of its kind. -/
lemma faithful_bare : bare.Faithful :=
  ⟨fun _ => rfl, fun _ => rfl, fun _ => rfl, fun _ => rfl⟩

/-- To move tokens keeps their kinds and values. -/
lemma faithful_moved (bytes lines : Nat) : (moved bytes lines).Faithful :=
  ⟨fun _ => rfl, fun _ => rfl, fun _ => rfl, fun _ => rfl⟩

end Relabelling

/-- Tokens that differ in their places only are those of programs that do so. -/
lemma Program.bare_eq_of_tokens {ts us : List Token} {program program' : Program}
    (noEnd : ∀ token ∈ ts, token.kind ≠ .eof) (same : us.map Token.bare = ts.map Token.bare)
    (derived : Grammar.Declarations ForClauses.whileLoop ts program)
    (derived' : Grammar.Declarations ForClauses.whileLoop us program') :
    Stmt.relabelAll .bare program' = Stmt.relabelAll .bare program := by
  have left := derived'.relabel Relabelling.faithful_bare (Relabelling.keeps_whileLoop _)
  have right := derived.relabel Relabelling.faithful_bare (Relabelling.keeps_whileLoop _)
  rw [Relabelling.bare_token] at left right
  rw [same] at left
  refine left.unique ?_ right
  rintro token mem
  obtain ⟨t, inside, rfl⟩ := List.mem_map.mp mem
  exact noEnd t inside

/-- Further on, the tokens of a program are those of the program further on. -/
lemma Program.derived_moved {ts : List Token} {program : Program} (bytes lines : Nat)
    (derived : Grammar.Declarations ForClauses.whileLoop ts program) :
    Grammar.Declarations ForClauses.whileLoop (ts.map (Token.shift bytes lines))
      (Stmt.relabelAll (.moved bytes lines) program) := by
  rw [← Relabelling.moved_token]
  exact derived.relabel (Relabelling.faithful_moved bytes lines) (Relabelling.keeps_whileLoop _)

/-- A program further on is the same without places. -/
lemma Program.bare_moved {ts : List Token} {program : Program} (bytes lines : Nat)
    (noEnd : ∀ token ∈ ts, token.kind ≠ .eof)
    (derived : Grammar.Declarations ForClauses.whileLoop ts program) :
    Stmt.relabelAll .bare (Stmt.relabelAll (.moved bytes lines) program) =
      Stmt.relabelAll .bare program := by
  refine Program.bare_eq_of_tokens noEnd ?_ derived (Program.derived_moved bytes lines derived)
  rw [List.map_map]
  exact List.map_congr_left fun _ _ => rfl

section

variable (f : Token → Token) (lexeme : ∀ t, (f t).lexeme = t.lexeme)

/-- A value prints alike if its name is somewhere else. -/
lemma Value.text_uniform (v : Value) : (v.relabel (.uniform f lexeme)).text = v.text := by
  cases v with
  | function g => exact congrArg (fun name => "<fn " ++ name ++ ">") (lexeme g.name)
  | _ => rfl

/-- A machine has printed the same lines if its tokens are somewhere else. -/
lemma Machine.lines_uniform (m : Machine) : (m.relabel (.uniform f lexeme)).lines = m.lines := by
  rw [lines, lines, linesFrom, linesFrom, relabel, Array.toList_map, List.drop_zero, List.drop_zero,
    List.map_map]
  exact List.map_congr_left fun v _ => v.text_uniform f lexeme

/-- There are no tokens in a machine that has done nothing yet. -/
lemma Machine.initial_uniform : Machine.initial.relabel (.uniform f lexeme) = .initial := by
  have scopes : Store.initial.relabel (.uniform f lexeme) = .initial := by
    rw [Store.relabel, Store.initial, List.map_toArray]
    rfl
  rw [relabel, initial, scopes, Array.map_empty]

end

namespace Machine

variable {m m' : Machine}

/-- Machines that differ in places only have printed the same lines. -/
lemma lines_eq_of_bare (same : m.relabel .bare = m'.relabel .bare) : m.lines = m'.lines := by
  rw [← m.lines_uniform _ Token.lexeme_bare, ← m'.lines_uniform _ Token.lexeme_bare]
  exact congrArg lines same

/-- Programs that differ in places only do the same on machines that differ in places only. -/
lemma interpret_bare {program program' : Program} (same : m.relabel .bare = m'.relabel .bare)
    (alike : Stmt.relabelAll .bare program = Stmt.relabelAll .bare program') (clock : Clock)
    (fuel : Nat) :
    (m.interpret clock fuel program).relabel .bare (Completion.relabel .bare) =
      (m'.interpret clock fuel program').relabel .bare (Completion.relabel .bare) := by
  rw [← interpret_relabel, ← interpret_relabel, same, alike]

end Machine

end Lox
