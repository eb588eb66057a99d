import Lox.Proofs.Confinement.Evaluate
import Lox.Proofs.Scan.Cursor
import Lox.Proofs.Scan.Spans
import Lox.Proofs.Session.Events
import Lox.Proofs.Syntax.Origin
import Mathlib

/-!
# Where faults point

A fault points at the place of its token in the source from which the token was scanned. For what
scanning and parsing find, that is the source which runs. A runtime error may also come from a
function that an earlier source made; it is reported against the later source all the same, in which
its place is another text or none.
-/

namespace Lox

namespace Span.Covers

variable {span : Span} {source text text' : String}

/-- A place in a source ends with the source at the latest. -/
lemma stop_le (h : span.Covers source text) : span.stop ≤ source.utf8ByteSize := by
  obtain ⟨before, behind, rfl, rfl⟩ := h
  rw [String.utf8ByteSize_append, String.utf8ByteSize_append]
  exact Nat.le_add_right _ _

/-- Nothing of a place in a source is outside the source. -/
lemma within_eq (h : span.Covers source text) : span.within source.utf8ByteSize = span := by
  have reach : span.start + span.length ≤ source.utf8ByteSize := h.stop_le
  have first : min span.start source.utf8ByteSize = span.start :=
    Nat.min_eq_left (Nat.le_of_add_right_le reach)
  have final : max span.start (min span.stop source.utf8ByteSize) = span.start + span.length := by
    rw [Nat.min_eq_left h.stop_le]
    exact Nat.max_eq_right (Nat.le_add_right _ _)
  simp only [Span.within, first, final, Nat.add_sub_cancel_left]

/-- The text in a place of a source is the slice there. -/
lemma slice (h : span.Covers source text) : slice? source span.start span.stop = some text := by
  obtain ⟨before, behind, rfl, rfl⟩ := h
  have cut := slice?_ofList before.toList text.toList behind.toList
  simp only [Lexicon.bytes, String.ofList_append, String.ofList_toList,
    String.utf8ByteSize_append] at cut
  exact cut

/-- There is one text only in a place of a source. -/
lemma unique (h : span.Covers source text) (h' : span.Covers source text') : text = text' :=
  Option.some.inj (h.slice.symm.trans h'.slice)

end Span.Covers

/-- The fault is in the place of the text in the source that it is about. -/
def Fault.Over (fault : Fault) (source text : String) : Prop :=
  match fault with
  | .lexical e => e.Over source text
  | .grammatical ⟨_, token⟩ | .runtime ⟨_, token⟩ =>
    token.lexeme = text ∧ token.span.Covers source text

/-- The fault points at the text in the source that it is about, and so does every report on it. -/
def Fault.PointsInto (source : String) (fault : Fault) : Prop :=
  ∃ text, fault.Over source text ∧ fault.diagnostic.span.Covers source text ∧
    ∀ reporter : Reporter, (reporter.report source fault.diagnostic).span.Covers source text

section

variable {source text : String} {fault : Fault}

/-- A fault in the place of its text points at the text in the source. -/
lemma Fault.Over.pointsInto (h : fault.Over source text) : fault.PointsInto source := by
  have covers : fault.diagnostic.span.Covers source text := by
    cases fault with
    | lexical e =>
      cases h with
      | unrecognized _ covers => exact covers
      | unterminated _ _ covers _ => exact covers
    | grammatical e => exact h.2
    | runtime e => exact h.2
  refine ⟨text, h, covers, fun reporter => ?_⟩
  rw [Reporter.report, covers.within_eq]
  exact covers

/-- A token of the source is in its place there. -/
lemma covers_of_mem {token : Token} (scanned : .ok token ∈ scan source) :
    token.span.Covers source token.lexeme :=
  standsIn_of_mem_scan (.ok token) scanned

/-- Errors and trees of a source have its tokens. -/
lemma Program.ofSource_drawn (source : String) :
    (∀ t ∈ Stmt.tokensAll (Program.ofSource source).1, .ok t ∈ scan source) ∧
      ∀ e ∈ (Program.parse (Item.tokens (scan source))).2, .ok e.token ∈ scan source := by
  have scanned : ∀ t, t ∈ Item.tokens (scan source) → .ok t ∈ scan source := by
    intro t mem
    obtain ⟨item, mem, isToken⟩ := List.mem_filterMap.mp mem
    cases item with
    | ok token =>
      cases isToken
      exact mem
    | error e => cases isToken
  obtain ⟨items, line, eq, -⟩ := scan_eq_append source
  have ended : ∃ token ∈ Item.tokens (scan source), token.kind = .eof := by
    refine ⟨.endMark line source.utf8ByteSize, ?_, rfl⟩
    refine List.mem_filterMap.mpr ⟨.ok (.endMark line source.utf8ByteSize), ?_, rfl⟩
    rw [eq]
    exact List.mem_append_right items (List.mem_singleton.mpr rfl)
  obtain ⟨program, errors⟩ := Program.parse_drawn ended
  exact ⟨fun t mem => scanned t (program t mem), fun e mem => scanned e.token (errors e mem)⟩

/-- What scanning and parsing find in a source points into it. -/
lemma Program.pointsInto_of_mem (found : fault ∈ (Program.ofSource source).2) :
    fault.PointsInto source := by
  rcases List.mem_append.mp found with lexical | grammatical
  · obtain ⟨e, mem, rfl⟩ := List.mem_map.mp lexical
    obtain ⟨item, mem, isError⟩ := List.mem_filterMap.mp mem
    cases item with
    | ok token => cases isError
    | error e' =>
      cases isError
      obtain ⟨text, about⟩ := standsIn_of_mem_scan (.error e) mem
      have here : (Fault.lexical e).Over source text := about
      exact here.pointsInto
  · obtain ⟨e, mem, rfl⟩ := List.mem_map.mp grammatical
    have scanned := (Program.ofSource_drawn source).2 e mem
    have here : (Fault.grammatical e).Over source e.token.lexeme := ⟨rfl, covers_of_mem scanned⟩
    exact here.pointsInto

/-- A runtime error points into the source of its token. -/
lemma pointsInto_of_scanned {e : RuntimeError} (scanned : .ok e.token ∈ scan source) :
    (Fault.runtime e).PointsInto source := by
  have here : (Fault.runtime e).Over source e.token.lexeme := ⟨rfl, covers_of_mem scanned⟩
  exact here.pointsInto

end

/-- The function is bound in some scope. -/
def Store.Binds (s : Store) (f : Closure) : Prop :=
  ∃ c name, (s.bindings c).get? name = some (.function f)

/-- All functions that are bound consist of certain tokens. -/
def Store.CodeIn (s : Store) (T : Token → Prop) : Prop :=
  ∀ f, s.Binds f → ∀ t ∈ f.tokens, T t

section

variable {m : Machine} {program : Program} {T : Token → Prop}

/-- A machine gets no code but that of the program. -/
lemma Machine.interpret_codeIn (clock : Clock) (fuel : Nat)
    (code : ∀ t ∈ Stmt.tokensAll program, T t) (bound : m.store.CodeIn T) :
    (∀ m' ∈ (m.interpret clock fuel program).machine?, m'.store.CodeIn T) ∧
      ∀ e m', m.interpret clock fuel program = .error e m' → T e.token := by
  -- The grant is for all names and scopes; only the tokens are limited.
  let g : Grant := ⟨T, fun _ => True, fun _ => trivial, fun _ => True, True⟩
  have start : m.Agree g m.store m :=
    .refl (fun _ => trivial) fun {c name v} _ found => by
      cases v with
      | function f => exact ⟨trivial, bound f ⟨c, name, found⟩⟩
      | _ => trivial
  have all : Eval.AllConfined g m.store clock clock fuel :=
    Eval.confined g m.store (fun _ => rfl) fuel
  have ended := all.executeAll code m m start
  constructor
  · rintro m' left f ⟨c, name, found⟩
    obtain ⟨m'', agree⟩ := ended.machine? m' left
    exact (agree.store.within trivial trivial found).2
  · intro e m' failed
    rw [Machine.interpret] at failed
    rw [failed] at ended
    cases ended with
    | error mentioned _ _ => exact mentioned

/-- In the beginning, no functions of programs are bound. -/
lemma Store.codeIn_initial (T : Token → Prop) : Store.initial.CodeIn T := by
  rintro f ⟨c, name, found⟩
  rw [get?_bindings_initial] at found
  split at found
  · cases found
  · cases found

end

namespace Session

variable {clock : Clock} {fuel : Nat} {source : String} {s t : Session} {status : Status}
  {es : List Event} {T : Token → Prop}

/-- After a run, functions consist of tokens of its source and of those before. -/
lemma Ran.codeIn (ran : Ran clock fuel source s status t)
    (scanned : ∀ t, .ok t ∈ scan source → T t) (bound : s.machine.store.CodeIn T) :
    t.machine.store.CodeIn T := by
  have code : ∀ t ∈ Stmt.tokensAll (Program.ofSource source).1, T t :=
    fun t mem => scanned t ((Program.ofSource_drawn source).1 t mem)
  have kept := (Machine.interpret_codeIn clock fuel code bound).1
  cases ran with
  | rejected _ => exact bound
  | succeeded _ _ result => exact kept _ (congrArg Outcome.machine? result)
  | failed _ _ result => exact kept _ (congrArg Outcome.machine? result)

/-- A session has no code but that of the sources that were run. -/
lemma History.codeIn (h : History clock s es t)
    (scanned : ∀ source status output errors, .run source status output errors ∈ es →
      ∀ t, .ok t ∈ scan source → T t)
    (bound : s.machine.store.CodeIn T) : t.machine.store.CodeIn T := by
  induction h with
  | nil s => exact bound
  | @cons e es s t u takes _ ih =>
    refine ih (fun source status output errors mem => ?_) ?_
    · exact scanned source status output errors (List.mem_cons_of_mem e mem)
    · cases takes with
      | run ended _ _ =>
        exact (run_eq_some_iff.mp ended).codeIn (scanned _ _ _ _ List.mem_cons_self) bound
      | forgive => exact bound
      | clear => exact bound

/-- All that a run reports points into its source, but for a runtime error in a function that an
earlier run made, which points into the source of that one. -/
theorem History.faults_point {reporter : Reporter} (h : History clock (.new reporter) es s)
    (ended : s.run clock fuel source = some (status, t)) :
    ∃ faults : List Fault, t.reported = s.reported ++ (faults.map (source, ·)).toArray ∧
      ∀ fault ∈ faults, fault.PointsInto source ∨
        ∃ e earlier status output errors, fault = .runtime e ∧
          .run earlier status output errors ∈ es ∧ fault.PointsInto earlier ∧
          ∃ f, s.machine.store.Binds f ∧ e.token ∈ f.tokens := by
  cases run_eq_some_iff.mp ended with
  | rejected _ =>
    exact ⟨_, rfl, fun fault found => .inl (Program.pointsInto_of_mem found)⟩
  | succeeded _ _ _ => exact ⟨[], Array.append_empty.symm, List.forall_mem_nil _⟩
  | @failed e m _ _ result =>
    refine ⟨[.runtime e], Array.push_eq_append, List.forall_mem_singleton.mpr ?_⟩
    -- The token is one of the source, or one of a function that has been there before.
    let known (token : Token) : Prop :=
      .ok token ∈ scan source ∨ ∃ f, s.machine.store.Binds f ∧ token ∈ f.tokens
    have code : ∀ t ∈ Stmt.tokensAll (Program.ofSource source).1, known t :=
      fun t mem => .inl ((Program.ofSource_drawn source).1 t mem)
    have bound : s.machine.store.CodeIn known := fun f binds _ mem => .inr ⟨f, binds, mem⟩
    rcases (Machine.interpret_codeIn clock fuel code bound).2 e m result with scanned | old
    · exact .inl (pointsInto_of_scanned scanned)
    · obtain ⟨f, binds, mem⟩ := old
      have origin : s.machine.store.CodeIn fun token => ∃ earlier status output errors,
          .run earlier status output errors ∈ es ∧ .ok token ∈ scan earlier :=
        h.codeIn (fun _ _ _ _ ran _ scanned => ⟨_, _, _, _, ran, scanned⟩) (Store.codeIn_initial _)
      obtain ⟨earlier, status, output, errors, ran, scanned⟩ := origin f binds e.token mem
      exact .inr ⟨e, earlier, status, output, errors, rfl, ran, pointsInto_of_scanned scanned, f,
        binds, mem⟩

/-- A source that makes a function which fails when it is called. -/
def failingFunction : String :=
  "fun f()\x7b-\"\";\x7d"

/-- A source that calls the function of another one. -/
def laterCall : String :=
  "print \"\"+\"\";f();"

/-- Where the failing operator stands in its source, the later one has another operator. -/
lemma laterCall_fails : ∃ e,
    (e.token.lexeme ≠ "+" ∧ e.token.span.Covers laterCall "+") ∧ ∀ reporter, ∃ s t,
      History (fun _ => 0) (.new reporter) [.run failingFunction .success "" ""] s ∧
      s.run (fun _ => 0) 20 laterCall = some (.runtimeError, t) ∧
      t.reported = s.reported ++ #[(laterCall, .runtime e)] := by
  have clean : (Program.ofSource failingFunction).2 = [] := by cbv
  have clean' : (Program.ofSource laterCall).2 = [] := by cbv
  obtain ⟨completion, m, e, m', first, printed, second, operator, place⟩ :
      ∃ completion m e m',
        Machine.initial.interpret (fun _ => 0) 20 (Program.ofSource failingFunction).1 =
          .ok completion m ∧ Text.unlines m.lines = "" ∧
        m.interpret (fun _ => 0) 20 (Program.ofSource laterCall).1 = .error e m' ∧
        e.token.lexeme = "-" ∧ e.token.span = ⟨8, 1⟩ :=
    ⟨_, _, _, _, by cbv, by cbv, by cbv, by cbv, by cbv⟩
  refine ⟨e, ⟨?_, ?_⟩, fun reporter => ?_⟩
  · rw [operator]
    decide
  · rw [place]
    exact ⟨"print \"\"", "\"\";f();", by decide, by decide⟩
  · have made : (Event.run failingFunction .success "" "").Takes (fun _ => 0)
        (.new reporter) { Session.new reporter with machine := m } :=
      .run (run_eq_some_iff.mpr (.succeeded rfl clean first)) printed String.append_empty.symm
    exact ⟨_, _, .cons made (.nil _), run_eq_some_iff.mpr (.failed rfl clean' second), rfl⟩

/-- A fault does not point into a source that has another text in its place. -/
lemma not_pointsInto_of_covers {e : RuntimeError} {text : String} (other : e.token.lexeme ≠ text)
    (covers : e.token.span.Covers source text) : ¬ (Fault.runtime e).PointsInto source := by
  rintro ⟨_, ⟨rfl, here⟩, _⟩
  exact other (here.unique covers)

/-- The failure of a function that an earlier source made is reported against the later source, into
which it does not point. -/
theorem fault_points_elsewhere : ∃ e,
    ¬ (Fault.runtime e).PointsInto laterCall ∧ ∀ reporter, ∃ s t,
      History (fun _ => 0) (.new reporter) [.run failingFunction .success "" ""] s ∧
      s.run (fun _ => 0) 20 laterCall = some (.runtimeError, t) ∧
      t.reported = s.reported ++ #[(laterCall, .runtime e)] := by
  obtain ⟨e, ⟨other, covers⟩, fails⟩ := laterCall_fails
  exact ⟨e, not_pointsInto_of_covers other covers, fails⟩

/-- The same failure points into the earlier source, which made the function. -/
theorem fault_points_into_earlier : ∃ e,
    (Fault.runtime e).PointsInto failingFunction ∧ ∀ reporter, ∃ s t,
      History (fun _ => 0) (.new reporter) [.run failingFunction .success "" ""] s ∧
      s.run (fun _ => 0) 20 laterCall = some (.runtimeError, t) ∧
      t.reported = s.reported ++ #[(laterCall, .runtime e)] := by
  obtain ⟨e, ⟨other, covers⟩, fails⟩ := laterCall_fails
  refine ⟨e, ?_, fails⟩
  obtain ⟨s, t, h, ended, reported⟩ := fails .plain
  obtain ⟨faults, same, points⟩ := h.faults_point ended
  have new : (faults.map (laterCall, ·)).toArray = #[(laterCall, .runtime e)] :=
    (Array.append_right_inj s.reported).mp (same.symm.trans reported)
  have listed : faults.map (laterCall, ·) = [(laterCall, .runtime e)] := congrArg Array.toList new
  obtain ⟨fault, found, pair⟩ : ∃ fault ∈ faults, (laterCall, fault) = (laterCall, .runtime e) := by
    rw [← List.mem_map, listed]
    exact List.mem_singleton.mpr rfl
  cases pair
  rcases points _ found with here | ⟨_, earlier, _, _, _, _, ran, there, _⟩
  · exact (not_pointsInto_of_covers other covers here).elim
  · cases List.mem_singleton.mp ran
    exact there

end Session

end Lox
