import Lox.Proofs.Machine.Along
import Lox.Session

/-!
# Histories of sessions

What can be done to a session, and what it shows then. `Session.Ran` lists the ways in which a run
can end; everything else about runs follows from it.
-/

namespace Lox

/-- The lines of two lists are those of the first one and then those of the second one. -/
lemma Text.unlines_append (lines lines' : List String) :
    unlines (lines ++ lines') = unlines lines ++ unlines lines' := by
  rw [unlines, unlines, unlines, List.map_append, String.join_append]

namespace Session

/-- How a run of a source ends with `fuel` units, and the session it leaves. -/
inductive Ran (clock : Clock) (fuel : Nat) (source : String) (s : Session) :
    Status → Session → Prop where
  /-- The source has a fault, or an earlier fault is not forgiven. -/
  | rejected :
    (s.hadError = true ∨ (Program.ofSource source).2 ≠ []) →
    Ran clock fuel source s .staticError (s.report source (Program.ofSource source).2)
  | succeeded {completion : Completion} {m : Machine} :
    s.hadError = false → (Program.ofSource source).2 = [] →
    s.machine.interpret clock fuel (Program.ofSource source).1 = .ok completion m →
    Ran clock fuel source s .success { s with machine := m }
  | failed {e : RuntimeError} {m : Machine} :
    s.hadError = false → (Program.ofSource source).2 = [] →
    s.machine.interpret clock fuel (Program.ofSource source).1 = .error e m →
    Ran clock fuel source s .runtimeError
      { s with
        machine := m
        reported := s.reported.push (source, .runtime e)
        hadRuntimeError := true }

variable {clock : Clock} {fuel : Nat} {source : String} {s t : Session} {status : Status}

/-- A source without faults leaves nothing to report. -/
lemma report_nil (source : String) (s : Session) : s.report source [] = s := by
  rw [report, List.map_nil, Array.append_empty]
  exact congrArg (Session.mk s.machine s.reported s.reporter · s.hadRuntimeError) (Bool.or_false _)

/-- A source is rejected unless neither it nor an earlier source has an unforgiven fault. -/
lemma hadError_report (source : String) (faults : List Fault) (s : Session) :
    (s.report source faults).hadError = true ↔ s.hadError = true ∨ faults ≠ [] := by
  cases faults with
  | nil => simp [report]
  | cons fault faults => simp [report]

/-- A run with a fault is not an execution. -/
lemma run_of_fault (fault : s.hadError = true ∨ (Program.ofSource source).2 ≠ []) :
    s.run clock fuel source =
      some (.staticError, s.report source (Program.ofSource source).2) := by
  have rejected := (hadError_report source _ s).mpr fault
  simp only [run]
  rw [if_pos rejected]

/-- How a run ends whose execution has an outcome. -/
def executed (source : String) (s : Session) : Outcome Completion → Option (Status × Session)
  | .ok _ m => some (.success, { s with machine := m })
  | .error e m =>
    some (.runtimeError,
      { s with
        machine := m
        reported := s.reported.push (source, .runtime e)
        hadRuntimeError := true })
  | .exhausted => none

/-- A run without a fault is an execution. -/
lemma run_of_clean (ready : s.hadError = false) (clean : (Program.ofSource source).2 = []) :
    s.run clock fuel source =
      s.executed source (s.machine.interpret clock fuel (Program.ofSource source).1) := by
  obtain ⟨machine, reported, reporter, hadError, hadRuntimeError⟩ := s
  cases ready
  simp only [run, clean, report_nil]
  rw [if_neg nofun]
  cases machine.interpret clock fuel (Program.ofSource source).1 with
  | ok completion m => rfl
  | error e m => rfl
  | exhausted => rfl

/-- These are all the ways in which a run can end. -/
lemma run_eq_some_iff : s.run clock fuel source = some (status, t) ↔
    Ran clock fuel source s status t := by
  constructor
  · intro ended
    by_cases fault : s.hadError = true ∨ (Program.ofSource source).2 ≠ []
    · rw [run_of_fault fault] at ended
      cases ended
      exact .rejected fault
    · rw [not_or, Bool.not_eq_true, not_not] at fault
      obtain ⟨ready, clean⟩ := fault
      rw [run_of_clean ready clean] at ended
      cases result : s.machine.interpret clock fuel (Program.ofSource source).1 with
      | ok completion m =>
        rw [result] at ended
        cases ended
        exact .succeeded ready clean result
      | error e m =>
        rw [result] at ended
        cases ended
        exact .failed ready clean result
      | exhausted =>
        rw [result] at ended
        cases ended
  · rintro (fault | ⟨ready, clean, result⟩ | ⟨ready, clean, result⟩)
    · exact run_of_fault fault
    · rw [run_of_clean ready clean, result]
      rfl
    · rw [run_of_clean ready clean, result]
      rfl

/-- The reports on the faults of a source stand behind the earlier ones. -/
lemma errors_report (source : String) (faults : List Fault) (s : Session) :
    (s.report source faults).errors =
      s.errors ++ Text.unlines (faults.map (s.reporter.show source ·.diagnostic)) := by
  rw [errors, report, Array.toList_append, List.map_append, Text.unlines_append, List.map_map]
  rfl

/-- The report on a fault stands behind the earlier ones. -/
lemma errors_push (source : String) (fault : Fault) (s : Session) :
    Text.unlines ((s.reported.push (source, fault)).toList.map fun (source, fault) =>
        s.reporter.show source fault.diagnostic) =
      s.errors ++ Text.unlines [s.reporter.show source fault.diagnostic] := by
  rw [errors, Array.toList_push, List.map_append, Text.unlines_append]
  rfl

/-- A run takes back nothing that was printed before. -/
lemma Ran.printsOn (ran : Ran clock fuel source s status t) : s.machine.PrintsOn t.machine := by
  cases ran with
  | rejected fault => exact List.prefix_refl _
  | succeeded ready clean result => exact Machine.printsOn_of_interpret result rfl
  | failed ready clean result => exact Machine.printsOn_of_interpret result rfl

/-- A run prints only behind what was printed before. -/
lemma Ran.output_append (ran : Ran clock fuel source s status t) :
    ∃ output, t.output = s.output ++ output := by
  obtain ⟨printed, behind⟩ := ran.printsOn
  refine ⟨Text.unlines (printed.map Value.text), ?_⟩
  rw [output, output, ← Text.unlines_append, Machine.lines, Machine.lines, Machine.linesFrom,
    Machine.linesFrom, ← behind, List.drop_zero, List.drop_zero, List.map_append]

/-- A run reports only behind what was reported before. -/
lemma Ran.errors_append (ran : Ran clock fuel source s status t) :
    ∃ errors, t.errors = s.errors ++ errors := by
  cases ran with
  | rejected fault => exact ⟨_, errors_report source _ s⟩
  | succeeded ready clean result => exact ⟨"", String.append_empty.symm⟩
  | failed ready clean result => exact ⟨_, errors_push source _ s⟩

end Session

/-- What is done to a session, and what it shows of a run: how it ends, and what it prints and
reports. -/
inductive Event where
  | run (source : String) (status : Status) (output errors : String)
  | forgive
  | clear

/-- An event takes a session to another one. -/
inductive Event.Takes (clock : Clock) : Event → Session → Session → Prop where
  | run {fuel : Nat} {source : String} {status : Status} {output errors : String}
    {s t : Session} :
    s.run clock fuel source = some (status, t) →
    t.output = s.output ++ output → t.errors = s.errors ++ errors →
    Takes clock (.run source status output errors) s t
  | forgive (s : Session) :
    Takes clock .forgive s s.forgive
  | clear (s : Session) :
    Takes clock .clear s s.clear

/-- A sequence of events takes a session to another one. -/
inductive Session.History (clock : Clock) : Session → List Event → Session → Prop where
  | nil (s : Session) :
    History clock s [] s
  | cons {e : Event} {es : List Event} {s t u : Session} :
    e.Takes clock s t → History clock t es u →
    History clock s (e :: es) u

/-- Every run that ends is an event. -/
lemma Session.takes_of_run {clock : Clock} {fuel : Nat} {source : String} {s t : Session}
    {status : Status} (ended : s.run clock fuel source = some (status, t)) :
    ∃ output errors, (Event.run source status output errors).Takes clock s t := by
  have ran := run_eq_some_iff.mp ended
  obtain ⟨output, printed⟩ := ran.output_append
  obtain ⟨errors, reported⟩ := ran.errors_append
  exact ⟨output, errors, .run ended printed reported⟩

end Lox
