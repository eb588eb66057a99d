import Lox.Proofs.Relabel.Places
import Lox.Proofs.Scan.Items
import Lox.Session

/-!
# Sources without faults

A source has no fault exactly if it is scanned into tokens only and the grammar derives its program
from them. Two such sources with a line feed between them are one, whose program does what the first
one says and then what the second one says.
-/

namespace Lox.Program

/-- The source has the program and no fault. -/
def Faultless (source : String) (ts : List Token) (program : Program) : Prop :=
  (∃ mark : Token, mark.kind = .eof ∧ scan source = (ts ++ [mark]).map .ok) ∧
    (∀ token ∈ ts, token.kind ≠ .eof) ∧
    Grammar.Declarations ForClauses.whileLoop ts program

variable {source source' : String} {ts ts' : List Token} {program program' : Program}

/-- The program of a source is that of its tokens. -/
lemma ofSource_fst (source : String) :
    (Program.ofSource source).1 = (Program.parse (Item.tokens (scan source))).1 :=
  rfl

/-- The faults of a source are those of scanning and then those of parsing. -/
lemma ofSource_snd (source : String) :
    (Program.ofSource source).2 = (Item.errors (scan source)).map .lexical ++
      (Program.parse (Item.tokens (scan source))).2.map .grammatical :=
  rfl

/-- A source that is scanned without errors consists of tokens in front of an end mark. -/
lemma scan_eq_tokens (clean : Item.errors (scan source) = []) :
    ∃ (ts : List Token) (mark : Token), mark.kind = .eof ∧ scan source = (ts ++ [mark]).map .ok ∧
      ∀ token ∈ ts, token.kind ≠ .eof := by
  obtain ⟨items, scanned, noEnd⟩ := scanFrom_eq_append .start source.toList
  rw [scan, scanned, Item.errors, List.filterMap_append] at clean
  have isTokens := Item.eq_map_tokens (List.append_eq_nil_iff.mp clean).1
  let stop := Position.start.after source.toList
  refine ⟨Item.tokens items, .endMark stop.line stop.offset, rfl, ?_, fun token mem => ?_⟩
  · rw [List.map_append, ← isTokens]
    exact scanned
  · refine noEnd token ?_
    rw [isTokens]
    exact List.mem_map_of_mem mem

/-- Scanning and parsing find no fault in a source exactly if the grammar derives its program. -/
lemma ofSource_eq_iff :
    Program.ofSource source = (program, []) ↔ ∃ ts, Faultless source ts program := by
  constructor
  · intro read
    have parsed := ofSource_fst source
    have clean := ofSource_snd source
    rw [read] at parsed clean
    obtain ⟨lexical, grammatical⟩ := List.append_eq_nil_iff.mp clean.symm
    obtain ⟨ts, mark, isEnd, scanned, noEnd⟩ := scan_eq_tokens (List.map_eq_nil_iff.mp lexical)
    rw [scanned, Item.tokens_map_ok] at parsed grammatical
    refine ⟨ts, ⟨mark, isEnd, scanned⟩, noEnd, ?_⟩
    refine (parse_eq_iff_derived noEnd (fun token mem => Option.some.inj mem ▸ isEnd) program).mp ?_
    exact Prod.ext parsed.symm (List.map_eq_nil_iff.mp grammatical)
  · rintro ⟨ts, ⟨mark, isEnd, scanned⟩, noEnd, derived⟩
    have read : Program.parse (ts ++ [mark]) = (program, []) :=
      (parse_eq_iff_derived noEnd (fun token mem => Option.some.inj mem ▸ isEnd) program).mpr derived
    refine Prod.ext ?_ ?_
    · rw [ofSource_fst, scanned, Item.tokens_map_ok, read]
    · rw [ofSource_snd, scanned, Item.tokens_map_ok, Item.errors_map_ok, read]
      rfl

/-- A line feed between two sources without faults makes them one without faults, whose program
starts with that of the first one and goes on with that of the second one further on. -/
lemma ofSource_append_newline (clean : (Program.ofSource source).2 = [])
    (clean' : (Program.ofSource source').2 = []) :
    ∃ further : Program,
      Program.ofSource (source ++ "\n" ++ source') =
        ((Program.ofSource source).1 ++ further, []) ∧
      Stmt.relabelAll .bare further = Stmt.relabelAll .bare (Program.ofSource source').1 := by
  obtain ⟨ts, ⟨mark, isEnd, scanned⟩, noEnd, derived⟩ :=
    ofSource_eq_iff.mp (Prod.ext (Eq.refl (Program.ofSource source).1) clean)
  obtain ⟨ts', ⟨mark', isEnd', scanned'⟩, noEnd', derived'⟩ :=
    ofSource_eq_iff.mp (Prod.ext (Eq.refl (Program.ofSource source').1) clean')
  let bytes := source.utf8ByteSize + 1
  let lines := source.toList.count '\n' + 1
  -- The first source is scanned without errors, so no string of it is open at the line feed.
  have closed : Item.Terminated (scan source) := scanned ▸ Item.terminated_map_ok _
  have items : scan (source ++ "\n" ++ source') =
      ((ts ++ ts'.map (Token.shift bytes lines)) ++ [mark'.shift bytes lines]).map .ok := by
    rw [scan_append_newline closed, scanned, scanned', List.map_append, List.map_singleton,
      List.dropLast_concat, List.map_map, List.map_append, List.append_assoc, List.map_append,
      List.map_append, List.map_map]
    rfl
  -- Its end mark is gone: the tokens of both sources stand in front of the second one's.
  have ends : ∀ token ∈ ts ++ ts'.map (Token.shift bytes lines), token.kind ≠ .eof := by
    intro token mem
    rcases List.mem_append.mp mem with first | second
    · exact noEnd token first
    · obtain ⟨t, inside, rfl⟩ := List.mem_map.mp second
      exact noEnd' t inside
  refine ⟨Stmt.relabelAll (.moved bytes lines) (Program.ofSource source').1, ?_,
    bare_moved bytes lines noEnd' derived'⟩
  exact ofSource_eq_iff.mpr ⟨_, ⟨mark'.shift bytes lines, isEnd', items⟩, ends,
    derived.append (derived_moved bytes lines derived')⟩

end Lox.Program
