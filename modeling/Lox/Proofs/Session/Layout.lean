import Lox.Proofs.Relabel.Parser
import Lox.Proofs.Session.Append

/-!
# Layout does not matter

Two sources that are scanned into the same tokens but for their places are the same program but for
places, with the same faults but for places. In whatever session they run, the runs end alike and
leave sessions that nothing can tell apart afterwards but the places in reports.
-/

namespace Lox

/-- What the meaning of a token depends on. -/
def Token.content (t : Token) : Kind × String × Option Literal :=
  (t.kind, t.lexeme, t.literal)

/-- What a diagnostic says but for its places. -/
def Diagnostic.said (d : Diagnostic) : String × String × String :=
  (d.code, d.message, d.label)

/-- The fault without places. -/
def Fault.bare : Fault → Fault
  | .lexical e => .lexical { e with line := 0, span := ⟨0, 0⟩ }
  | .grammatical e => .grammatical (e.retoken Token.bare)
  | .runtime e => .runtime (e.relabel .bare)

/-- Tokens with the same contents are the same without their places. -/
lemma Token.map_bare_eq {ts us : List Token} (same : ts.map content = us.map content) :
    ts.map bare = us.map bare := by
  have rebuild : bare = (fun c => ⟨c.1, c.2.1, c.2.2, 0, ⟨0, 0⟩⟩) ∘ content := rfl
  rw [rebuild, ← List.map_map, same, List.map_map]

/-- A relabelled value is of the same type. -/
lemma Value.typeName_relabel (r : Relabelling) (v : Value) :
    (v.relabel r).typeName = v.typeName := by
  cases v <;> rfl

/-- The cause of a relabelled error is relabelled. -/
lemma RuntimeError.cause_relabel (r : Relabelling) (e : RuntimeError) :
    (e.relabel r).cause = e.cause.relabel r := by
  obtain ⟨cause, token⟩ := e
  cases cause <;> rfl

section

variable (cause : RuntimeCause)

/-- A relabelled cause has the same code. -/
lemma RuntimeCause.code_relabel (r : Relabelling) : (cause.relabel r).code = cause.code := by
  cases cause <;> rfl

/-- A cause without places has the same message. -/
lemma RuntimeCause.message_bare : (cause.relabel .bare).message = cause.message := by
  cases cause <;> rfl

/-- A relabelled cause has the same label. -/
lemma RuntimeCause.label_relabel (r : Relabelling) : (cause.relabel r).label = cause.label := by
  cases cause with
  | notNumber v => exact congrArg ("operand is a " ++ ·) (v.typeName_relabel r)
  | notNumbers u v | notAddable u v =>
    exact congrArg₂ ("operands are a " ++ · ++ " and a " ++ ·) (u.typeName_relabel r)
      (v.typeName_relabel r)
  | undefinedVariable name => rfl
  | notCallable v => exact congrArg ("callee is a " ++ ·) (v.typeName_relabel r)
  | wrongArity actual expected => rfl

end

/-- A fault says the same without its places. -/
lemma Fault.said_bare (fault : Fault) : fault.bare.diagnostic.said = fault.diagnostic.said := by
  cases fault with
  | lexical e => rfl
  | grammatical e => rfl
  | runtime e =>
    change ((e.relabel .bare).cause.code, (e.relabel .bare).cause.message,
      (e.relabel .bare).cause.label) = (e.cause.code, e.cause.message, e.cause.label)
    rw [e.cause_relabel, e.cause.code_relabel, e.cause.message_bare, e.cause.label_relabel]

/-- Faults that are the same without their places say the same. -/
lemma Fault.map_said_eq {faults faults' : List Fault}
    (same : faults.map bare = faults'.map bare) :
    faults.map (·.diagnostic.said) = faults'.map (·.diagnostic.said) := by
  have rebuild : (fun fault : Fault => fault.diagnostic.said) =
      (fun fault => fault.diagnostic.said) ∘ bare :=
    funext fun fault => fault.said_bare.symm
  rw [rebuild, ← List.map_map, same, List.map_map]

/-- Two sources consist of the same tokens, in places of their own, and of nothing else. -/
structure SameTokens (source source' : String) : Prop where
  clean : Item.errors (scan source) = []
  clean' : Item.errors (scan source') = []
  contents : (Item.tokens (scan source)).map Token.content =
    (Item.tokens (scan source')).map Token.content

namespace SameTokens

variable {source source' : String} (h : SameTokens source source')

include h

/-- Sources with the same tokens have the same program and the same faults but for places. -/
lemma ofSource : Stmt.relabelAll .bare (Program.ofSource source).1 =
      Stmt.relabelAll .bare (Program.ofSource source').1 ∧
    (Program.ofSource source).2.map Fault.bare = (Program.ofSource source').2.map Fault.bare := by
  have ended : ∀ {source : String}, Item.errors (scan source) = [] →
      ∃ token ∈ Item.tokens (scan source), token.kind = .eof := by
    intro source clean
    obtain ⟨ts, mark, isEnd, scanned, -⟩ := Program.scan_eq_tokens clean
    rw [scanned, Item.tokens_map_ok]
    exact ⟨mark, List.mem_append_right ts (List.mem_singleton_self mark), isEnd⟩
  have left := Program.parse_retoken .bare (ended h.clean)
  have right := Program.parse_retoken .bare (ended h.clean')
  have same : (Item.tokens (scan source)).map Replacement.bare.token =
      (Item.tokens (scan source')).map Replacement.bare.token := Token.map_bare_eq h.contents
  rw [same, right] at left
  obtain ⟨programs, errors⟩ := Prod.mk.inj left
  refine ⟨programs.symm, ?_⟩
  have faults : ∀ es : List SyntaxError, (es.map Fault.grammatical).map Fault.bare =
      (es.map (SyntaxError.retoken Token.bare)).map Fault.grammatical := by
    intro es
    rw [List.map_map, List.map_map]
    rfl
  rw [Program.ofSource_snd, Program.ofSource_snd, h.clean, h.clean', List.map_nil,
    List.nil_append, List.nil_append, faults, faults]
  exact congrArg (List.map Fault.grammatical) errors.symm

end SameTokens

namespace Session

/-- Two runs, from the same session and of two sources, have left sessions of which nothing tells
apart what is done afterwards. The reports that they have added differ in places only. -/
structure LeftAlike (clock : Clock) (s : Session) (source source' : String) (t t' : Session) :
    Prop where
  later : t.Indistinguishable clock t'
  reports : ∃ faults faults' : List Fault,
    t.reported = s.reported ++ (faults.map (source, ·)).toArray ∧
    t'.reported = s.reported ++ (faults'.map (source', ·)).toArray ∧
    faults.map Fault.bare = faults'.map Fault.bare ∧
    faults.map (·.diagnostic.said) = faults'.map (·.diagnostic.said)

/-- Ends of runs that are alike. -/
def EndedAlike (clock : Clock) (s : Session) (source source' : String) :
    Option (Status × Session) → Option (Status × Session) → Prop
  | none, none => True
  | some (status, t), some (status', t') =>
    status = status' ∧ LeftAlike clock s source source' t t'
  | _, _ => False

variable {clock : Clock} {s : Session} {source source' : String}

/-- Executions whose outcomes differ in places only leave sessions alike. -/
lemma executed_endedAlike {o o' : Outcome Completion}
    (same : o.relabel .bare (Completion.relabel .bare) =
      o'.relabel .bare (Completion.relabel .bare)) :
    EndedAlike clock s source source' (s.executed source o) (s.executed source' o') := by
  cases o with
  | ok completion m =>
    cases o' with
    | ok completion' m' =>
      have alike : Alike { s with machine := m } { s with machine := m' } :=
        ⟨(Outcome.ok.inj same).2, rfl⟩
      exact ⟨rfl, alike.indistinguishable, [], [], Array.append_empty.symm,
        Array.append_empty.symm, rfl, rfl⟩
    | error e' m' => cases same
    | exhausted => cases same
  | error e m =>
    cases o' with
    | ok completion' m' => cases same
    | error e' m' =>
      obtain ⟨errors, machines⟩ := Outcome.error.inj same
      have faults : [Fault.runtime e].map Fault.bare = [Fault.runtime e'].map Fault.bare :=
        congrArg (fun e => [Fault.runtime e]) errors
      refine ⟨rfl, Alike.indistinguishable ⟨machines, rfl⟩, [.runtime e], [.runtime e'],
        ?_, ?_, faults, Fault.map_said_eq faults⟩
      · exact Array.push_eq_append
      · exact Array.push_eq_append
    | exhausted => cases same
  | exhausted =>
    cases o' with
    | ok completion' m' => cases same
    | error e' m' => cases same
    | exhausted => trivial

/-- Layout does not matter: whatever the session, sources with the same tokens run alike. With the
same fuel both runs end or neither does; if they end, it is with the same status, the same output
and the same reports but for places, and nothing that is done to the sessions later shows a
difference, but for places again. -/
theorem run_sameTokens (h : SameTokens source source') (clock : Clock) (fuel : Nat) (s : Session) :
    EndedAlike clock s source source' (s.run clock fuel source) (s.run clock fuel source') := by
  obtain ⟨programs, faults⟩ := h.ofSource
  have none_iff : (Program.ofSource source).2 = [] ↔ (Program.ofSource source').2 = [] := by
    rw [← List.map_eq_nil_iff (f := Fault.bare), faults, List.map_eq_nil_iff]
  by_cases fault : s.hadError = true ∨ (Program.ofSource source).2 ≠ []
  · have fault' : s.hadError = true ∨ (Program.ofSource source').2 ≠ [] :=
      fault.imp id (mt none_iff.mpr)
    have flags : (s.report source (Program.ofSource source).2).hadError =
        (s.report source' (Program.ofSource source').2).hadError :=
      ((hadError_report _ _ s).mpr fault).trans ((hadError_report _ _ s).mpr fault').symm
    have alike : Alike (s.report source (Program.ofSource source).2)
        (s.report source' (Program.ofSource source').2) := ⟨rfl, flags⟩
    rw [run_of_fault fault, run_of_fault fault']
    exact ⟨rfl, alike.indistinguishable, _, _, rfl, rfl, faults, Fault.map_said_eq faults⟩
  · rw [not_or, Bool.not_eq_true, not_not] at fault
    obtain ⟨ready, clean⟩ := fault
    rw [run_of_clean ready clean, run_of_clean ready (none_iff.mp clean)]
    exact executed_endedAlike (Machine.interpret_bare rfl programs clock fuel)

/-- A failing source fails alike with a comment and line feeds in it. -/
theorem spread_out_fails_alike :
    SameTokens "print \"a\";-\"\";" "print \"a\"; // and then\n-\n\"\";" ∧
    ∃ t, (Session.new .plain).run (fun _ => 0) 9 "print \"a\"; // and then\n-\n\"\";" =
      some (.runtimeError, t) ∧ t.output = "a\n" := by
  have same : SameTokens "print \"a\";-\"\";" "print \"a\"; // and then\n-\n\"\";" :=
    ⟨by cbv, by cbv, by cbv⟩
  obtain ⟨t, ended, printed⟩ : ∃ t,
      (Session.new .plain).run (fun _ => 0) 9 "print \"a\";-\"\";" = some (.runtimeError, t) ∧
        t.output = "a\n" :=
    ⟨_, by cbv, by cbv⟩
  have alike := run_sameTokens same (fun _ => 0) 9 (Session.new .plain)
  rw [ended] at alike
  generalize (Session.new .plain).run _ 9 "print \"a\"; // and then\n-\n\"\";" = other at alike ⊢
  cases other with
  | none => cases alike
  | some result =>
    obtain ⟨status, t'⟩ := result
    obtain ⟨rfl, left⟩ := alike
    exact ⟨same, t', rfl, left.later.1.symm.trans printed⟩

end Session

end Lox
