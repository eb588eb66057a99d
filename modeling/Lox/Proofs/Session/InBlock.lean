import Lox.Proofs.Session.Events
import Lox.Proofs.Session.Source
import Lox.Proofs.Simulation.InBlock
import Mathlib

/-!
# A block around a program cannot be seen

A source without faults between braces is a source without faults, whose program is one block. Its
tokens stand one byte further on but on the same lines, so that even its errors read the same. What a
new session shows of the two sources is the same, and it shows something of both or of neither.
-/

namespace Lox

/-- The text in a block, with the closing brace on a line of its own. -/
def Text.inBlock (text : String) : String :=
  "\x7b" ++ text ++ "\n\x7d"

/-- A brace that opens a text is scanned by itself. -/
lemma scanFrom_leftBrace (cs : List Char) :
    scanFrom .start ('\x7b' :: cs) =
      .ok ⟨.leftBrace, "\x7b", none, 1, ⟨0, 1⟩⟩ :: scanFrom (Position.start.shift 1 0) cs := by
  rw [scanFrom_cons]
  rfl

/-- A brace that closes a text is scanned by itself. -/
lemma scanFrom_rightBrace (p : Position) :
    ∃ stop mark : Token, stop.kind = .rightBrace ∧ mark.kind = .eof ∧
      scanFrom p ['\x7d'] = [.ok stop, .ok mark] := by
  have behind : ∀ q, scanFrom q [] = [.ok (.endMark q.line q.offset)] := fun q => by rw [scanFrom]
  have here := scanFrom_cons p '\x7d' []
  dsimp only at here
  rw [List.drop_nil, behind] at here
  exact ⟨_, _, rfl, rfl, here⟩

/-- A source is scanned alike in a block, one byte further on, between the braces. -/
lemma scan_inBlock {source : String} (closed : Item.Terminated (scan source)) :
    ∃ start stop mark : Token,
      start.kind = .leftBrace ∧ stop.kind = .rightBrace ∧ mark.kind = .eof ∧
      scan (Text.inBlock source) =
        .ok start :: ((scan source).dropLast.map (Item.shift 1 0) ++ [.ok stop, .ok mark]) := by
  have text : (Text.inBlock source).toList = '\x7b' :: (source.toList ++ '\n' :: ['\x7d']) := by
    rw [Text.inBlock, String.toList_append, String.toList_append, List.append_assoc]
    rfl
  have moved : scanFrom (Position.start.shift 1 0) source.toList =
      (scan source).map (Item.shift 1 0) := scanFrom_shift 1 0 .start source.toList
  have closed' : Item.Terminated (scanFrom (Position.start.shift 1 0) source.toList) := by
    rw [moved]
    intro e mem
    obtain ⟨item, inside, eq⟩ := List.mem_map.mp mem
    cases item with
    | ok token => cases eq
    | error e' =>
      cases eq
      exact closed e' inside
  obtain ⟨stop, mark, stops, isEnd, last⟩ :=
    scanFrom_rightBrace ((Position.start.shift 1 0).after (source.toList ++ ['\n']))
  refine ⟨⟨.leftBrace, "\x7b", none, 1, ⟨0, 1⟩⟩, stop, mark, rfl, stops, isEnd, ?_⟩
  rw [scan, text, scanFrom_leftBrace, scanFrom_append closed', moved, last, List.map_dropLast]

/-- A source without faults in a block has no fault, and its program is one block. -/
lemma Program.ofSource_inBlock {source : String} (clean : (Program.ofSource source).2 = []) :
    Program.ofSource (Text.inBlock source) =
      ([.block (Stmt.relabelAll (.moved 1 0) (Program.ofSource source).1)], []) := by
  obtain ⟨ts, ⟨mark, isEnd, scanned⟩, noEnd, derived⟩ :=
    ofSource_eq_iff.mp (Prod.ext (Eq.refl (Program.ofSource source).1) clean)
  have closed : Item.Terminated (scan source) := scanned ▸ Item.terminated_map_ok _
  obtain ⟨start, stop, mark', starts, stops, isEnd', items⟩ := scan_inBlock closed
  rw [scanned, List.map_append, List.map_singleton, List.dropLast_concat, List.map_map] at items
  refine ofSource_eq_iff.mpr ⟨start :: (ts.map (Token.shift 1 0) ++ [stop]), ⟨mark', isEnd', ?_⟩,
    ?_, (derived_moved 1 0 derived).block starts stops⟩
  · rw [items, List.map_append, List.map_cons, List.map_append, List.map_map, List.cons_append,
      List.append_assoc]
    rfl
  · intro token mem
    rcases List.mem_cons.mp mem with rfl | mem
    · exact starts ▸ nofun
    · rcases List.mem_append.mp mem with moved | last
      · obtain ⟨t, inside, rfl⟩ := List.mem_map.mp moved
        exact noEnd t inside
      · rw [List.mem_singleton.mp last, stops]
        exact nofun

/-- An error reads the same further on in its line. -/
lemma RuntimeError.text_moved (bytes : Nat) (e : RuntimeError) :
    (e.relabel (.moved bytes 0)).text = e.text := by
  obtain ⟨cause, token⟩ := e
  cases cause <;> rfl

/-- Whether a program stands further on in its lines is not shown. -/
lemma Outcome.shown_moved {α : Type} (bytes : Nat) (F : α → α) (o : Outcome α) :
    (o.relabel (.moved bytes 0) F).shown = o.shown := by
  cases o with
  | ok value m => exact congrArg (fun lines => some (lines, none)) (m.lines_uniform _ _)
  | error e m =>
    exact congrArg₂ (fun lines text => some (lines, some text)) (m.lines_uniform _ _)
      (e.text_moved bytes)
  | exhausted => rfl

/-- A program shows the same further on in its lines. -/
lemma Machine.interpret_moved_shown (clock : Clock) (fuel bytes : Nat) (program : Program) :
    (Machine.initial.interpret clock fuel (Stmt.relabelAll (.moved bytes 0) program)).shown =
      (Machine.initial.interpret clock fuel program).shown := by
  have moved := interpret_relabel (.moved bytes 0) clock fuel program .initial
  have same : Machine.initial.relabel (.moved bytes 0) = .initial := initial_uniform _ _
  rw [same] at moved
  rw [moved, Outcome.shown_moved]

/-- The statements of a block are like those of another one if the blocks are alike. -/
lemma Stmt.AllAlike.of_block {program program' : Program}
    (h : AllAlike [.block program] [.block program']) : AllAlike program program' := by
  cases h with
  | cons first _ =>
    cases first with
    | block body => exact body

namespace Session

/-- The status, the output and the reports of a run in a new session, from what its end shows. -/
def told : List String × Option String → Status × String × String
  | (lines, none) => (.success, Text.unlines lines, "")
  | (lines, some text) => (.runtimeError, Text.unlines lines, Text.unlines [text])

variable {status : Status} {output errors : String}

/-- What an execution in a new session leaves is what its outcome shows. -/
lemma executed_new_iff (source : String) (o : Outcome Completion) :
    (∃ t, (Session.new .plain).executed source o = some (status, t) ∧ t.output = output ∧
      t.errors = errors) ↔
      ∃ result, o.shown = some result ∧ told result = (status, output, errors) := by
  constructor
  · rintro ⟨t, ended, rfl, rfl⟩
    cases o with
    | ok completion m =>
      cases ended
      exact ⟨_, rfl, rfl⟩
    | error e m =>
      cases ended
      exact ⟨_, rfl, rfl⟩
    | exhausted => cases ended
  · rintro ⟨result, shown, same⟩
    cases o with
    | ok completion m =>
      cases shown
      cases same
      exact ⟨_, rfl, rfl, rfl⟩
    | error e m =>
      cases shown
      cases same
      exact ⟨_, rfl, rfl, rfl⟩
    | exhausted => cases shown

/-- What can be read after a run in a new session is what its execution shows. -/
lemma run_new_iff {source : String} (clean : (Program.ofSource source).2 = []) (clock : Clock) :
    (∃ fuel t, (Session.new .plain).run clock fuel source = some (status, t) ∧ t.output = output ∧
      t.errors = errors) ↔
      ∃ result, (∃ fuel, (Machine.initial.interpret clock fuel (Program.ofSource source).1).shown =
        some result) ∧ told result = (status, output, errors) := by
  have executes : ∀ fuel, (Session.new .plain).run clock fuel source =
      (Session.new .plain).executed source
        (Machine.initial.interpret clock fuel (Program.ofSource source).1) :=
    fun fuel => run_of_clean rfl clean
  simp only [executes, executed_new_iff]
  constructor
  · rintro ⟨fuel, result, shown, same⟩
    exact ⟨result, ⟨fuel, shown⟩, same⟩
  · rintro ⟨result, ⟨fuel, shown⟩, same⟩
    exact ⟨fuel, result, shown, same⟩

/-- A block around a program cannot be seen. In a new session, a source without faults and the same
source in a block both come to an end or neither does; if they do, it is with the same status, the
same output and the same reports. -/
theorem run_inBlock {source : String} (clean : (Program.ofSource source).2 = []) (clock : Clock)
    (status : Status) (output errors : String) :
    (∃ fuel t, (Session.new .plain).run clock fuel (Text.inBlock source) = some (status, t) ∧
      t.output = output ∧ t.errors = errors) ↔
      ∃ fuel t, (Session.new .plain).run clock fuel source = some (status, t) ∧
        t.output = output ∧ t.errors = errors := by
  have inBlock := Program.ofSource_inBlock clean
  -- What the parser returns is like itself, and so is the program inside the block.
  have alike : Stmt.AllAlike (Program.ofSource (Text.inBlock source)).1
      (Program.ofSource (Text.inBlock source)).1 := (Program.alike_parse _).right
  rw [inBlock] at alike
  rw [run_new_iff clean, run_new_iff (congrArg Prod.snd inBlock), inBlock]
  simp only [Machine.interpret_inBlock alike.of_block, Machine.interpret_moved_shown]

/-- A source that assigns to `clock` before it declares it, and fails. -/
def clockRedefined : String :=
  "fun f()\x7bprint clock;\x7d clock=\"c\";f();\nvar clock;f();-clock; // no clock"

/-- In a block, the assignment changes the host function's scope and the declaration another one;
still the function sees the one after the other, and the failure is on the same line. -/
theorem clockRedefined_inBlock :
    (Program.ofSource clockRedefined).2 = [] ∧
    ∃ fuel t, (Session.new .plain).run (fun _ => 0) fuel (Text.inBlock clockRedefined) =
        some (.runtimeError, t) ∧
      t.output = "c\nnil\n" ∧ t.errors = "Operand must be a number.\n[line 2]\n" := by
  have clean : (Program.ofSource clockRedefined).2 = [] := by cbv
  obtain ⟨e, m, ended, printed, text⟩ : ∃ e m,
      Machine.initial.interpret (fun _ => 0) 20 (Program.ofSource clockRedefined).1 = .error e m ∧
        m.lines = ["c", "nil"] ∧ e.text = "Operand must be a number.\n[line 2]" :=
    ⟨_, _, by cbv, by cbv, rfl⟩
  have shown : ∃ fuel,
      (Machine.initial.interpret (fun _ => 0) fuel (Program.ofSource clockRedefined).1).shown =
        some (["c", "nil"], some "Operand must be a number.\n[line 2]") := by
    refine ⟨20, ?_⟩
    rw [ended, Outcome.shown, printed, text]
  refine ⟨clean, (run_inBlock clean (fun _ => 0) .runtimeError _ _).mpr ?_⟩
  exact (run_new_iff clean _).mpr ⟨_, shown, rfl⟩

end Session

end Lox
