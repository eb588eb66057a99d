import Lox.Proofs.Machine.Fuel
import Lox.Proofs.Scan.Items
import Lox.Proofs.Session.Events
import Mathlib

/-!
# Sessions as state machines

What a run does to a session in any state, what the flags of a session say about its history, and
that rejected runs leave no trace in an interactive history, where every run is followed by
forgiveness: the history without them is a history too, of the same runs with the same results.
-/

namespace Lox

/-- The event is a run of a source with a fault that scanning or parsing finds. -/
def Event.Faulty : Event → Prop
  | .run source _ _ _ => (Program.ofSource source).2 ≠ []
  | .forgive | .clear => False

/-- The event is a run that ends with the status. -/
def Event.EndsWith (status : Status) : Event → Prop
  | .run _ status' _ _ => status' = status
  | .forgive | .clear => False

/-- Forgiveness follows every run. -/
inductive Event.Interactive : List Event → Prop where
  | nil :
    Interactive []
  | run (source : String) (status : Status) (output errors : String) {es : List Event} :
    Interactive es →
    Interactive (.run source status output errors :: .forgive :: es)
  | forgive {es : List Event} :
    Interactive es →
    Interactive (.forgive :: es)
  | clear {es : List Event} :
    Interactive es →
    Interactive (.clear :: es)

/-- Some rejected runs are left out, alone or with the forgiveness that follows them. -/
inductive Event.Thinned : List Event → List Event → Prop where
  | nil :
    Thinned [] []
  | keep (e : Event) {es es' : List Event} :
    Thinned es es' →
    Thinned (e :: es) (e :: es')
  | drop (source output errors : String) {es es' : List Event} :
    Thinned es es' →
    Thinned (.run source .staticError output errors :: es) es'
  | dropForgiven (source output errors : String) {es es' : List Event} :
    Thinned es es' →
    Thinned (.run source .staticError output errors :: .forgive :: es) es'

namespace Session

/-- The second session has reports on faults of a source behind those of the first one. -/
def Gains (source : String) (faults : List Fault) (s t : Session) : Prop :=
  t.reported = s.reported ++ (faults.map (source, ·)).toArray ∧
    t.errors = s.errors ++ Text.unlines (faults.map (s.reporter.show source ·.diagnostic))

/-- What a run of a source does to a session. -/
structure RunLaw (clock : Clock) (source : String) (s : Session) (status : Status) (t : Session) :
    Prop where
  shown : ∃ output errors, (Event.run source status output errors).Takes clock s t
  reporter : t.reporter = s.reporter
  hadError : t.hadError = true ↔ s.hadError = true ∨ (Program.ofSource source).2 ≠ []
  rejected_iff : status = .staticError ↔ t.hadError = true
  /-- Nothing is executed, and the faults of the source are reported: those of scanning, then those
  of parsing. -/
  rejected : status = .staticError →
    t.machine = s.machine ∧ t.output = s.output ∧ t.hadRuntimeError = s.hadRuntimeError ∧
      Gains source
        ((Item.errors (scan source)).map .lexical ++
          (Program.parse (Item.tokens (scan source))).2.map .grammatical) s t
  ordered : (Item.errors (scan source)).Pairwise fun e e' => e.span.stop ≤ e'.span.start
  failed_iff : status ≠ .staticError →
    (status = .runtimeError ↔
      ∃ fuel e m, s.machine.interpret clock fuel (Program.ofSource source).1 = .error e m)
  failed : status = .runtimeError →
    ∃ fuel e, s.machine.interpret clock fuel (Program.ofSource source).1 = .error e t.machine ∧
      t.hadRuntimeError = true ∧ Gains source [.runtime e] s t
  succeeded : status = .success →
    ∃ fuel completion,
      s.machine.interpret clock fuel (Program.ofSource source).1 = .ok completion t.machine ∧
        t.hadRuntimeError = s.hadRuntimeError ∧ Gains source [] s t

section

variable {clock : Clock} {fuel : Nat} {source : String} {s t : Session} {status : Status}

/-- Every run does what the law says. -/
lemma runLaw (ended : s.run clock fuel source = some (status, t)) :
    RunLaw clock source s status t := by
  have shown := takes_of_run ended
  have ordered := Item.errors_ordered source
  cases run_eq_some_iff.mp ended with
  | rejected fault =>
    have hadError := hadError_report source (Program.ofSource source).2 s
    exact
      { shown, ordered, hadError
        reporter := rfl
        rejected_iff := iff_of_true rfl (hadError.mpr fault)
        rejected := fun _ => ⟨rfl, rfl, rfl, rfl, errors_report source _ s⟩
        failed_iff := fun executed => (executed rfl).elim
        failed := nofun
        succeeded := nofun }
  | @succeeded completion m ready clean result =>
    -- A run that ends normally with some fuel fails with none.
    have notFailed : ¬ ∃ fuel e m,
        s.machine.interpret clock fuel (Program.ofSource source).1 = .error e m := by
      rintro ⟨fuel', e, m', failed⟩
      have left : s.machine.interpret clock fuel (Program.ofSource source).1 ≠ .exhausted := by
        rw [result]
        exact nofun
      have right : s.machine.interpret clock fuel' (Program.ofSource source).1 ≠ .exhausted := by
        rw [failed]
        exact nofun
      have same := Machine.interpret_unique left right
      rw [result, failed] at same
      cases same
    exact
      { shown, ordered
        reporter := rfl
        hadError := by simp [ready, clean]
        rejected_iff := by simp [ready]
        rejected := nofun
        failed_iff := fun _ => iff_of_false nofun notFailed
        failed := nofun
        succeeded := fun _ =>
          ⟨fuel, completion, result, rfl, Array.append_empty.symm, String.append_empty.symm⟩ }
  | @failed e m ready clean result =>
    exact
      { shown, ordered
        reporter := rfl
        hadError := by simp [ready, clean]
        rejected_iff := by simp [ready]
        rejected := nofun
        failed_iff := fun _ => iff_of_true rfl ⟨fuel, e, m, result⟩
        failed := fun _ =>
          ⟨fuel, e, result, rfl, Array.push_eq_append, errors_push source (.runtime e) s⟩
        succeeded := nofun }

end

section

variable {clock : Clock} {s t : Session} {es : List Event}

/-- There is an unforgiven fault behind an event if there was one before it that it does not
forgive, or if it brings one. -/
lemma takes_hadError_iff {e : Event} (h : e.Takes clock s t) :
    t.hadError = true ↔ (s.hadError = true ∧ e ≠ .forgive) ∨ e.Faulty := by
  cases h with
  | run ended _ _ =>
    rw [(runLaw ended).hadError, and_iff_left nofun]
    rfl
  | forgive => exact iff_of_false nofun (not_or.mpr ⟨fun kept => kept.2 rfl, id⟩)
  | clear =>
    rw [and_iff_left nofun]
    exact (or_iff_left id).symm

/-- An event sets the flag of runtime errors if it is a run that ends with one. -/
lemma takes_hadRuntimeError_iff {e : Event} (h : e.Takes clock s t) :
    t.hadRuntimeError = true ↔ s.hadRuntimeError = true ∨ e.EndsWith .runtimeError := by
  cases h with
  | @run fuel source status _ _ _ _ ended _ _ =>
    have law := runLaw ended
    cases status with
    | success =>
      obtain ⟨_, _, _, same, _⟩ := law.succeeded rfl
      rw [same]
      exact (or_iff_left nofun).symm
    | staticError =>
      rw [(law.rejected rfl).2.2.1]
      exact (or_iff_left nofun).symm
    | runtimeError =>
      obtain ⟨_, _, _, failed, _⟩ := law.failed rfl
      exact iff_of_true failed (.inr rfl)
  | forgive => exact (or_iff_left id).symm
  | clear => exact (or_iff_left id).symm

/-- There is an unforgiven fault if there was one at the beginning that no event forgives, or if a
source brought one that no later event forgives. -/
lemma History.hadError_iff (h : History clock s es t) :
    t.hadError = true ↔
      (s.hadError = true ∧ .forgive ∉ es) ∨
        ∃ earlier e later, es = earlier ++ e :: later ∧ e.Faulty ∧ .forgive ∉ later := by
  induction h with
  | nil s =>
    refine ⟨fun fault => .inl ⟨fault, List.not_mem_nil⟩, ?_⟩
    rintro (⟨fault, -⟩ | ⟨earlier, e, later, eq, -⟩)
    · exact fault
    · exact (List.append_ne_nil_of_right_ne_nil earlier (List.cons_ne_nil e later) eq.symm).elim
  | @cons e es s t u takes _ ih =>
    rw [ih, takes_hadError_iff takes]
    -- The last fault that is not forgiven is the first event itself or a later one.
    constructor
    · rintro (⟨⟨fault, kept⟩ | faulty, unforgiven⟩ | ⟨earlier, e', later, rfl, fault⟩)
      · refine .inl ⟨fault, fun forgiven => ?_⟩
        rcases List.mem_cons.mp forgiven with first | others
        · exact kept first.symm
        · exact unforgiven others
      · exact .inr ⟨[], e, es, rfl, faulty, unforgiven⟩
      · exact .inr ⟨e :: earlier, e', later, rfl, fault⟩
    · rintro (⟨fault, unforgiven⟩ | ⟨earlier, e', later, eq, faulty, unforgiven⟩)
      · rw [List.mem_cons, not_or] at unforgiven
        exact .inl ⟨.inl ⟨fault, fun eq => unforgiven.1 eq.symm⟩, unforgiven.2⟩
      · cases earlier with
        | nil =>
          cases eq
          exact .inl ⟨.inr faulty, unforgiven⟩
        | cons first earlier =>
          cases eq
          exact .inr ⟨earlier, e', later, rfl, faulty, unforgiven⟩

/-- After some events, the flag is set if one of them has set it. -/
lemma History.hadRuntimeError_iff (h : History clock s es t) :
    t.hadRuntimeError = true ↔
      s.hadRuntimeError = true ∨ ∃ e ∈ es, e.EndsWith .runtimeError := by
  induction h with
  | nil s =>
    refine (or_iff_left ?_).symm
    rintro ⟨e, mem, -⟩
    cases mem
  | cons takes _ ih => rw [ih, takes_hadRuntimeError_iff takes, List.exists_mem_cons_iff, or_assoc]

/-- What was reported before has no influence on a run. -/
lemma Ran.with_reported {fuel : Nat} {source : String} {status : Status}
    (ran : Ran clock fuel source s status t) (reported : Array (String × Fault)) :
    ∃ reported', Ran clock fuel source { s with reported } status
        { t with reported := reported' } ∧
      ∀ errors, t.errors = s.errors ++ errors →
        Session.errors { t with reported := reported' } =
          Session.errors { s with reported } ++ errors := by
  cases ran with
  | rejected fault =>
    refine ⟨_, .rejected fault, fun errors appended => ?_⟩
    rw [errors_report] at appended
    rw [← (String.append_right_inj _).mp appended]
    exact errors_report source _ { s with reported }
  | succeeded ready clean result =>
    refine ⟨_, .succeeded ready clean result, fun errors appended => ?_⟩
    have nothing : s.errors ++ "" = s.errors ++ errors := String.append_empty.trans appended
    rw [← (String.append_right_inj _).mp nothing]
    exact String.append_empty.symm
  | @failed e m ready clean result =>
    refine ⟨_, .failed ready clean result, fun errors appended => ?_⟩
    have one := (errors_push source (.runtime e) s).symm.trans appended
    rw [← (String.append_right_inj _).mp one]
    exact errors_push source _ { s with reported }

/-- What has been reported before makes no difference to an event. -/
lemma takes_with_reported {e : Event} (h : e.Takes clock s t) (reported : Array (String × Fault)) :
    ∃ reported', e.Takes clock { s with reported } { t with reported := reported' } := by
  cases h with
  | run ended printed appended =>
    obtain ⟨reported', ran, behind⟩ := (run_eq_some_iff.mp ended).with_reported reported
    exact ⟨reported', .run (run_eq_some_iff.mpr ran) printed (behind _ appended)⟩
  | forgive => exact ⟨reported, .forgive _⟩
  | clear => exact ⟨#[], .clear _⟩

/-- But for its reports, a rejected run is forgotten when it is forgiven. -/
lemma forgive_of_rejected {source output errors : String}
    (h : (Event.run source .staticError output errors).Takes clock s t)
    (reported : Array (String × Fault)) :
    { t.forgive with reported } = { s.forgive with reported } := by
  cases h with
  | run ended _ _ =>
    cases run_eq_some_iff.mp ended with
    | rejected _ => rfl

/-- Rejected runs may be left out of an interactive history. -/
lemma History.thinned (interactive : Event.Interactive es) {es' : List Event}
    (thin : Event.Thinned es es') (h : History clock s es t) (ready : s.hadError = false)
    (reported : Array (String × Fault)) :
    ∃ reported', History clock { s with reported } es' { t with reported := reported' } := by
  induction interactive generalizing es' s reported with
  | nil =>
    cases thin
    cases h
    exact ⟨reported, .nil _⟩
  | @run source status output errors es _ ih =>
    obtain _ | ⟨takes, _ | ⟨⟨⟩, rest⟩⟩ := h
    -- A run and its forgiveness: both are kept, the run alone is left out, or both are.
    cases thin with
    | keep _ thin =>
      obtain _ | ⟨_, thin⟩ := thin
      obtain ⟨reported₁, takes⟩ := takes_with_reported takes reported
      obtain ⟨reported₂, rest⟩ := ih thin rest rfl reported₁
      exact ⟨reported₂, .cons takes (.cons (.forgive _) rest)⟩
    | drop _ _ _ thin =>
      obtain _ | ⟨_, thin⟩ := thin
      obtain ⟨reported', rest⟩ := ih thin rest rfl reported
      rw [forgive_of_rejected takes] at rest
      exact ⟨reported', .cons (.forgive _) rest⟩
    | dropForgiven _ _ _ thin =>
      obtain ⟨reported', rest⟩ := ih thin rest rfl reported
      -- Nothing was to be forgiven before, so forgiveness may go as well.
      have same : { s.forgive with reported } = { s with reported } := by
        rw [forgive, ← ready]
      rw [forgive_of_rejected takes, same] at rest
      exact ⟨reported', rest⟩
  | forgive _ ih =>
    obtain _ | ⟨⟨⟩, rest⟩ := h
    obtain _ | ⟨_, thin⟩ := thin
    obtain ⟨reported', rest⟩ := ih thin rest rfl reported
    exact ⟨reported', .cons (.forgive _) rest⟩
  | clear _ ih =>
    obtain _ | ⟨⟨⟩, rest⟩ := h
    obtain _ | ⟨_, thin⟩ := thin
    obtain ⟨reported', rest⟩ := ih thin rest ready #[]
    exact ⟨reported', .cons (.clear _) rest⟩

end

/-- What a sequence of events from a new session on says about the session that it leaves. -/
structure HistoryLaw (clock : Clock) (reporter : Reporter) (es : List Event) (s : Session) :
    Prop where
  hadError : s.hadError = true ↔
    ∃ earlier e later, es = earlier ++ e :: later ∧ e.Faulty ∧ .forgive ∉ later
  hadRuntimeError : s.hadRuntimeError = true ↔ ∃ e ∈ es, e.EndsWith .runtimeError
  run {fuel : Nat} {source : String} {status : Status} {t : Session} :
    s.run clock fuel source = some (status, t) → RunLaw clock source s status t
  /-- Without any of the rejected runs, the others end, print and report as before. -/
  thinned : Event.Interactive es → ∀ es', Event.Thinned es es' →
    ∃ s', History clock (.new reporter) es' s' ∧ s'.machine = s.machine ∧
      s'.hadError = s.hadError ∧ s'.hadRuntimeError = s.hadRuntimeError

/-- A session is a state machine: its flags say what has happened, each run ends and reports as its
source and the flags demand, and rejected runs leave no trace behind forgiveness. -/
theorem History.law {clock : Clock} {reporter : Reporter} {es : List Event} {s : Session}
    (h : History clock (.new reporter) es s) : HistoryLaw clock reporter es s where
  hadError := by
    rw [h.hadError_iff]
    exact or_iff_right fun fault => nomatch fault.1
  hadRuntimeError := by
    rw [h.hadRuntimeError_iff]
    exact or_iff_right nofun
  run := runLaw
  thinned interactive es' thin := by
    obtain ⟨reported, rest⟩ := h.thinned interactive thin rfl #[]
    exact ⟨_, rest, rfl, rfl, rfl⟩

/-- A mistake that is forgiven has no influence on the line that follows it. -/
theorem mistake_leaves_no_trace :
    ∃ errors s s',
      History (fun _ => 0) (.new .plain)
        [.run "?" .staticError "" errors, .forgive, .run "print \"a\";" .success "a\n" "",
          .forgive] s ∧
      History (fun _ => 0) (.new .plain) [.run "print \"a\";" .success "a\n" "", .forgive] s' ∧
      s'.machine = s.machine := by
  have fault : (Program.ofSource "?").2 ≠ [] := by
    cbv
    exact List.cons_ne_nil _ _
  have ended : (Session.new .plain).run (fun _ => 0) 0 "?" = _ := run_of_fault (.inr fault)
  have rejected : (Event.run "?" .staticError "" _).Takes (fun _ => 0) (.new .plain) _ :=
    .run ended String.append_empty.symm (errors_report "?" _ _)
  have clean : (Program.ofSource "print \"a\";").2 = [] := by cbv
  obtain ⟨completion, m, result, printed⟩ : ∃ completion m,
      Machine.initial.interpret (fun _ => 0) 9 (Program.ofSource "print \"a\";").1 =
        .ok completion m ∧ Text.unlines m.lines = "a\n" :=
    ⟨_, _, by cbv, by cbv⟩
  have executed : (Event.run "print \"a\";" .success "a\n" "").Takes (fun _ => 0)
      (Session.report "?" (Program.ofSource "?").2 (.new .plain)).forgive _ :=
    .run (run_eq_some_iff.mpr (.succeeded rfl clean result)) printed String.append_empty.symm
  have h := History.cons rejected (.cons (.forgive _) (.cons executed (.cons (.forgive _) (.nil _))))
  obtain ⟨s', rest, same, -⟩ := h.law.thinned (.run _ _ _ _ (.run _ _ _ _ .nil)) _
    (.dropForgiven _ _ _ (.keep _ (.keep _ .nil)))
  exact ⟨_, _, s', h, rest, same⟩

end Session

end Lox
