import Lox.Proofs.Machine.Sequence
import Lox.Proofs.Session.Events
import Lox.Proofs.Session.Source
import Mathlib

/-!
# Sources line by line

Running one source and then another one is running both at once, with a line feed between them. The
sessions differ in the places of tokens only, which nothing but reports can show, so whatever happens
to one of them afterwards can happen to the other one.
-/

namespace Lox

/-- The event without what it reports. -/
def Event.seen : Event → Event
  | .run source status output _ => .run source status output ""
  | .forgive => .forgive
  | .clear => .clear

namespace Session

/-- What can happen to the first session can happen to the second one, but for the reports. -/
def Imitates (clock : Clock) (s s' : Session) : Prop :=
  ∀ es t, History clock s' es t →
    ∃ es' t', History clock s es' t' ∧ es'.map Event.seen = es.map Event.seen

/-- Two sessions have printed the same, and from now on they show the same. -/
def Indistinguishable (clock : Clock) (s s' : Session) : Prop :=
  s.output = s'.output ∧ s.Imitates clock s' ∧ s'.Imitates clock s

/-- Two sessions differ in reports and in the places of tokens only. -/
structure Alike (s s' : Session) : Prop where
  machine : s.machine.relabel .bare = s'.machine.relabel .bare
  hadError : s.hadError = s'.hadError

variable {clock : Clock} {s s' t : Session}

namespace Alike

/-- Sessions that are alike are so the other way round. -/
lemma symm (h : Alike s s') : Alike s' s :=
  ⟨h.machine.symm, h.hadError.symm⟩

/-- Sessions that are alike have printed the same. -/
lemma output (h : Alike s s') : s.output = s'.output :=
  congrArg Text.unlines (Machine.lines_eq_of_bare h.machine)

end Alike

/-- Executions whose outcomes differ in places only end alike. -/
lemma executed_alike {o o' : Outcome Completion} {source : String} {status : Status}
    (flags : s.hadError = s'.hadError)
    (same : o.relabel .bare (Completion.relabel .bare) = o'.relabel .bare (Completion.relabel .bare))
    (ended : s.executed source o = some (status, t)) (source' : String) :
    ∃ t', s'.executed source' o' = some (status, t') ∧ t.Alike t' := by
  cases o with
  | ok completion m =>
    cases o' with
    | ok completion' m' =>
      cases ended
      exact ⟨_, rfl, (Outcome.ok.inj same).2, flags⟩
    | error e' m' => cases same
    | exhausted => cases same
  | error e m =>
    cases o' with
    | ok completion' m' => cases same
    | error e' m' =>
      cases ended
      exact ⟨_, rfl, (Outcome.error.inj same).2, flags⟩
    | exhausted => cases same
  | exhausted => cases ended

/-- A source runs alike in sessions that are alike. -/
lemma Alike.run {fuel : Nat} {source : String} {status : Status} (h : Alike s s')
    (ended : s.run clock fuel source = some (status, t)) :
    ∃ t', s'.run clock fuel source = some (status, t') ∧ t.Alike t' := by
  by_cases fault : s.hadError = true ∨ (Program.ofSource source).2 ≠ []
  · have fault' := fault
    rw [h.hadError] at fault'
    rw [run_of_fault fault] at ended
    cases ended
    exact ⟨_, run_of_fault fault', h.machine, congrArg (· || _) h.hadError⟩
  · rw [not_or, Bool.not_eq_true, not_not] at fault
    obtain ⟨ready, clean⟩ := fault
    rw [run_of_clean ready clean] at ended
    rw [run_of_clean (h.hadError.symm.trans ready) clean]
    exact executed_alike h.hadError (Machine.interpret_bare h.machine rfl clock fuel) ended source

/-- An event happens alike in sessions that are alike. -/
lemma Alike.takes {e : Event} (h : Alike s s') (takes : e.Takes clock s t) :
    ∃ (e' : Event) (t' : Session), e'.Takes clock s' t' ∧ t.Alike t' ∧ e'.seen = e.seen := by
  cases takes with
  | run ended printed _ =>
    obtain ⟨t', ended', alike⟩ := h.run ended
    obtain ⟨errors', reported'⟩ := (run_eq_some_iff.mp ended').errors_append
    rw [h.output, alike.output] at printed
    exact ⟨_, t', .run ended' printed reported', alike, rfl⟩
  | forgive => exact ⟨.forgive, _, .forgive s', ⟨h.machine, rfl⟩, rfl⟩
  | clear =>
    refine ⟨.clear, _, .clear s', ⟨?_, h.hadError⟩, rfl⟩
    have same := Machine.mk.inj h.machine
    rw [Session.clear, Session.clear, Machine.relabel, Machine.relabel, Machine.mk.injEq]
    exact ⟨same.1, same.2.1, rfl, same.2.2.2⟩

/-- Sessions that are alike imitate each other. -/
lemma Alike.imitates (h : Alike s s') : s'.Imitates clock s := by
  intro es t history
  -- One event at a time: what it leaves is alike again.
  induction history generalizing s' with
  | nil s => exact ⟨[], s', .nil s', rfl⟩
  | cons takes _ ih =>
    obtain ⟨e', t', takes', alike, seen⟩ := h.takes takes
    obtain ⟨es', u', rest, others⟩ := ih alike
    exact ⟨e' :: es', u', .cons takes' rest, congrArg₂ List.cons seen others⟩

/-- Sessions that are alike are indistinguishable. -/
lemma Alike.indistinguishable (h : Alike s s') : s.Indistinguishable clock s' :=
  ⟨h.output, h.symm.imitates, h.imitates⟩

/-- Running a source and then another one is running both at once, with a line feed between them:
either the second run and the run of both end, with the same status and in sessions that cannot be
told apart, or neither does. -/
theorem run_append_newline {fuel : Nat} {first second : String} {m : Machine}
    (ready : s.hadError = false) (clean : (Program.ofSource first).2 = [])
    (clean' : (Program.ofSource second).2 = [])
    (normal : s.machine.interpret clock fuel (Program.ofSource first).1 = .ok .normal m) :
    s.run clock fuel first = some (.success, { s with machine := m }) ∧
      ∀ status,
        (∀ fuel₁ t, Session.run clock fuel₁ second { s with machine := m } = some (status, t) →
          ∃ fuel₂ t', s.run clock fuel₂ (first ++ "\n" ++ second) = some (status, t') ∧
            t.Indistinguishable clock t') ∧
        (∀ fuel₂ t', s.run clock fuel₂ (first ++ "\n" ++ second) = some (status, t') →
          ∃ fuel₁ t, Session.run clock fuel₁ second { s with machine := m } = some (status, t) ∧
            t.Indistinguishable clock t') := by
  obtain ⟨further, both, alike⟩ := Program.ofSource_append_newline clean clean'
  have ran : s.run clock fuel first = some (.success, { s with machine := m }) := by
    rw [run_of_clean ready clean, normal]
    rfl
  -- Run at once, the two programs are one list of statements.
  have once : ∀ fuel₂, s.run clock fuel₂ (first ++ "\n" ++ second) =
      s.executed (first ++ "\n" ++ second)
        (s.machine.interpret clock fuel₂ ((Program.ofSource first).1 ++ further)) := by
    intro fuel₂
    rw [run_of_clean ready (congrArg Prod.snd both), both]
  have twice : ∀ fuel₁, Session.run clock fuel₁ second { s with machine := m } =
      Session.executed second { s with machine := m }
        (m.interpret clock fuel₁ (Program.ofSource second).1) :=
    fun fuel₁ => run_of_clean ready clean'
  -- The second program is the same but for its places, which a run does not read.
  have same : ∀ fuel₁, (m.interpret clock fuel₁ (Program.ofSource second).1).relabel .bare
      (Completion.relabel .bare) =
        (m.interpret clock fuel₁ further).relabel .bare (Completion.relabel .bare) :=
    fun fuel₁ => Machine.interpret_bare rfl alike.symm clock fuel₁
  have flags : Session.hadError { s with machine := m } = s.hadError := rfl
  refine ⟨ran, fun status => ⟨fun fuel₁ t ended => ?_, fun fuel₂ t' ended => ?_⟩⟩
  · rw [twice] at ended
    obtain ⟨t', ended', like⟩ := executed_alike flags (same fuel₁) ended
      (first ++ "\n" ++ second)
    have notCut : m.interpret clock fuel₁ further ≠ .exhausted := by
      intro cut
      rw [cut] at ended'
      cases ended'
    obtain ⟨fuel₂, together⟩ := (Machine.interpret_append_iff normal notCut further).mpr ⟨fuel₁, rfl⟩
    refine ⟨fuel₂, t', ?_, like.indistinguishable⟩
    rw [once, together]
    exact ended'
  · rw [once] at ended
    have notCut : s.machine.interpret clock fuel₂ ((Program.ofSource first).1 ++ further) ≠
        .exhausted := by
      intro cut
      rw [cut] at ended
      cases ended
    obtain ⟨fuel₁, apart⟩ := (Machine.interpret_append_iff normal notCut further).mp ⟨fuel₂, rfl⟩
    rw [← apart] at ended
    obtain ⟨t, ended', like⟩ := executed_alike flags.symm (same fuel₁).symm ended second
    refine ⟨fuel₁, t, ?_, like.symm.indistinguishable⟩
    rw [twice]
    exact ended'

/-- A variable of one line is printed by the next one, also if both are run at once. -/
theorem lines_share_variables :
    ∃ fuel t,
      (Session.new .plain).run (fun _ => 0) fuel ("var a = \"x\";" ++ "\n" ++ "print a;") =
        some (.success, t) ∧
      t.output = "x\n" := by
  have clean : (Program.ofSource "var a = \"x\";").2 = [] := by cbv
  have clean' : (Program.ofSource "print a;").2 = [] := by cbv
  obtain ⟨m, normal, t, ended, printed⟩ : ∃ m,
      (Session.new .plain).machine.interpret (fun _ => 0) 9 (Program.ofSource "var a = \"x\";").1 =
        .ok .normal m ∧
      ∃ t, Session.run (fun _ => 0) 9 "print a;" { Session.new .plain with machine := m } =
        some (.success, t) ∧ t.output = "x\n" :=
    ⟨_, by cbv, _, by cbv, by cbv⟩
  obtain ⟨fuel, t', once, same, -⟩ :=
    ((run_append_newline rfl clean clean' normal).2 .success).1 9 t ended
  exact ⟨fuel, t', once, same.symm.trans printed⟩

end Session

end Lox
