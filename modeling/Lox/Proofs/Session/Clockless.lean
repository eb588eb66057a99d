import Lox.Proofs.Confinement.Moments
import Lox.Proofs.Scan.Lexemes
import Lox.Proofs.Session.Faults
import Mathlib

/-!
# Sources that do not name the clock

The one host function is bound to its name in the globals, and a program gets at it by this name
only. As long as no source has the name, no moment of a session holds the function, and every scope
binds the name as in the beginning. So a session is the same with any clock.
-/

namespace Lox

/-- No identifier of the source is the name of the clock. -/
def Clockless (source : String) : Prop :=
  ∀ t, .ok t ∈ scan source → t.kind = .identifier → t.lexeme ≠ Builtin.clock.name

/-- If the event is a run, it is one of a source that does not name the clock. -/
def Event.Clockless : Event → Prop
  | .run source _ _ _ => Lox.Clockless source
  | .forgive | .clear => True

/-- Code may do everything but name the clock and hold it. -/
def Grant.clockless : Grant where
  mentions t := t.lexeme ≠ Builtin.clock.name
  names name := name ≠ Builtin.clock.name
  named := id
  enters _ := True
  hosts := False

/-- The value is a host function. -/
def Value.IsNative : Value → Prop
  | .native _ _ => True
  | _ => False

/-- A value that clockless code may hold is no host function. -/
lemma Value.Within.not_native {v : Value} (h : v.Within .clockless) : ¬ v.IsNative := by
  cases v with
  | native builtin serial => exact h.elim
  | _ => exact id

section

variable {source : String} {t : Token}

/-- Only an identifier has the text of the clock's name. -/
lemma identifier_of_clock (scanned : .ok t ∈ scan source) (same : t.lexeme = Builtin.clock.name) :
    t.kind = .identifier := by
  have inner : t.kind ≠ .eof := by
    obtain ⟨items, line, eq, noEnd⟩ := scan_eq_append source
    rw [eq] at scanned
    rcases List.mem_append.mp scanned with mem | last
    · exact noEnd t mem
    · cases List.mem_singleton.mp last
      have empty : "" = Builtin.clock.name := same
      exact absurd empty (by decide)
  have rule := Token.ruled_of_mem scanned inner
  have text : t.lexeme.toList = 'c' :: ['l', 'o', 'c', 'k'] := same ▸ rfl
  rw [Token.Ruled, text] at rule
  rw [rule.kind_of_letter (.inl (by decide))]
  decide

/-- A source no token of which has the clock's name does not name the clock. -/
lemma Clockless.of_tokens
    (free : (Item.tokens (scan source)).all (·.lexeme != Builtin.clock.name) = true) :
    Clockless source := by
  intro t scanned _
  have mem : t ∈ Item.tokens (scan source) := List.mem_filterMap.mpr ⟨.ok t, scanned, rfl⟩
  exact bne_iff_ne.mp (List.all_eq_true.mp free t mem)

/-- A source that does not name the clock has granted code only. -/
lemma Clockless.granted (clockless : Clockless source) :
    (Task.executeAll (Program.ofSource source).1).Within .clockless := by
  intro t mem same
  have scanned := (Program.ofSource_drawn source).1 t mem
  exact clockless t scanned (identifier_of_clock scanned same) same

end

/-- Nothing that the machine holds leads to the clock, and it binds the clock's name as in the
beginning. -/
structure Machine.Clockless (m : Machine) : Prop where
  agree : m.Agree .clockless .initial m
  spares : Store.initial.Spares .clockless m.store

/-- At a moment, the one host function is the clock, which only the globals bind, and to its name
only. -/
structure Moment.OnlyClock (now : Moment) : Prop where
  held : ∀ v ∈ now.values, ¬ v.IsNative
  bound {c : ScopeId} {name : String} {v : Value} :
    (now.machine.store.bindings c).get? name = some v →
    (v.IsNative ↔ c = Store.globals ∧ name = Builtin.clock.name)
  clock : (now.machine.store.bindings Store.globals).get? Builtin.clock.name =
    some (.native .clock 0)

namespace Machine

variable {m : Machine} {clock : Clock} {fuel : Nat} {program : Program}

/-- A machine that has done nothing yet holds nothing that leads to the clock. -/
lemma Clockless.initial : Machine.initial.Clockless where
  agree := by
    refine .refl (m := .initial) (fun _ => trivial) fun {c name v} named found => ?_
    rw [Machine.initial, Store.get?_bindings_initial, if_neg fun h => named h.2] at found
    cases found
  spares := .refl _

/-- All moments of a program that does not name the clock stay clear of it. -/
lemma Clockless.moments {now : Moment} (h : m.Clockless)
    (granted : (Task.executeAll program).Within .clockless)
    (leads : Moment.LeadsWithin 0 (.beginning clock (.executeAll program) m .program) now) :
    now.Within .clockless .initial ∧ now.machine.Clockless := by
  obtain ⟨within, spares⟩ := leads.within (Moment.beginning_within h.agree granted trivial)
  exact ⟨within, within.machine, h.spares.trans spares⟩

/-- Clockless code leaves no machine in which something does. -/
lemma Clockless.interpret (h : m.Clockless)
    (granted : (Task.executeAll program).Within .clockless) :
    ∀ m' ∈ (m.interpret clock fuel program).machine?, m'.Clockless := by
  intro m' left
  obtain ⟨later, ended, rfl⟩ := Moment.exists_ended? (.executeAll program) .program left
  have leads := Moment.leadsWithin_of_run clock fuel (.executeAll program) m .program later ended
  exact (h.moments granted leads).2

end Machine

/-- At a moment that stays clear of the clock, only the globals have it. -/
lemma Moment.Within.onlyClock {now : Moment} (h : now.Within .clockless .initial)
    (clockless : now.machine.Clockless) : now.OnlyClock where
  held v mem := (h.values v mem).not_native
  bound {c name v} found := by
    by_cases named : name = Builtin.clock.name
    · have same := clockless.spares name (not_not_intro named) c
      rw [Store.get?_bindings_initial, found] at same
      by_cases here : c = Store.globals
      · rw [if_pos ⟨here, named⟩] at same
        cases same
        exact iff_of_true trivial ⟨here, named⟩
      · rw [if_neg fun h => here h.1] at same
        cases same
    · have within := clockless.agree.store.within trivial named found
      exact iff_of_false within.not_native fun h => named h.2
  clock := (clockless.spares _ (not_not_intro rfl) _).trans (Store.get?_bindings_initial _ _)

namespace Session

variable {clock clock' : Clock} {fuel : Nat} {source : String} {s t : Session} {status : Status}

/-- Without the clock's name, a source runs in the same way with any clock. -/
lemma run_clock (h : s.machine.Clockless) (clockless : Clockless source) :
    s.run clock' fuel source = s.run clock fuel source := by
  by_cases fault : s.hadError = true ∨ (Program.ofSource source).2 ≠ []
  · rw [run_of_fault fault, run_of_fault fault]
  · rw [not_or, Bool.not_eq_true, not_not] at fault
    obtain ⟨ready, clean⟩ := fault
    rw [run_of_clean ready clean, run_of_clean ready clean]
    exact congrArg (s.executed source) (Task.run_clock id fuel clockless.granted h.agree)

/-- A run of a source that does not name the clock leaves nothing that leads to it. -/
lemma Ran.clockless (ran : Ran clock fuel source s status t) (h : s.machine.Clockless)
    (clockless : Clockless source) : t.machine.Clockless := by
  have kept : ∀ m ∈ (s.machine.interpret clock fuel (Program.ofSource source).1).machine?,
      m.Clockless := h.interpret clockless.granted
  cases ran with
  | rejected _ => exact h
  | succeeded _ _ result => exact kept _ (congrArg Outcome.machine? result)
  | failed _ _ result => exact kept _ (congrArg Outcome.machine? result)

end Session

/-- Without the clock's name, events do the same with any clock, and stay clear of it. -/
lemma Event.Takes.clockless {clock : Clock} {e : Event} {s t : Session} (takes : e.Takes clock s t)
    (h : s.machine.Clockless) (clockless : e.Clockless) :
    t.machine.Clockless ∧ ∀ clock', e.Takes clock' s t := by
  cases takes with
  | run ended printed reported =>
    refine ⟨(Session.run_eq_some_iff.mp ended).clockless h clockless, fun clock' => ?_⟩
    exact .run ((Session.run_clock h clockless).trans ended) printed reported
  | forgive => exact ⟨h, fun _ => .forgive s⟩
  | clear => exact ⟨⟨⟨h.agree.store, h.agree.inside, rfl⟩, h.spares⟩, fun _ => .clear s⟩

namespace Session

variable {clock : Clock} {s t : Session} {es : List Event}

/-- Events that do not name the clock leave nothing that leads to it, and do the same with any
clock. -/
lemma History.clockless (h : History clock s es t) (start : s.machine.Clockless)
    (clockless : ∀ e ∈ es, e.Clockless) :
    t.machine.Clockless ∧ ∀ clock', History clock' s es t := by
  induction h with
  | nil s => exact ⟨start, fun _ => .nil s⟩
  | cons takes _ ih =>
    obtain ⟨first, others⟩ := List.forall_mem_cons.mp clockless
    obtain ⟨between, alike⟩ := takes.clockless start first
    obtain ⟨after, rest⟩ := ih between others
    exact ⟨after, fun clock' => .cons (alike clock') (rest clock')⟩

/-- The moment at which the program of a source begins to be executed. -/
def entering (clock : Clock) (source : String) (s : Session) : Moment :=
  .beginning clock (.executeAll (Program.ofSource source).1) s.machine .program

/-- What a sequence of events from a new session on says if no source of it names the clock. -/
structure ClocklessLaw (clock : Clock) (reporter : Reporter) (es : List Event) (s : Session) :
    Prop where
  /-- With any clock, all runs end, print and report the same. -/
  history (clock' : Clock) : History clock' (.new reporter) es s
  /-- So does one more, or it does not end with any clock. -/
  run {source : String} : Clockless source → ∀ clock' fuel,
    s.run clock' fuel source = s.run clock fuel source
  between : (Moment.idle s.machine).OnlyClock
  /-- No moment of an execution holds a host function. -/
  during {source : String} {now : Moment} : Clockless source →
    (s.entering clock source).LeadsWithin 0 now → now.OnlyClock
  /-- By such moments, the evaluator comes to its end. -/
  leads {source : String} {fuel : Nat} {later : Moment} :
    later ∈ Moment.ended? (.executeAll (Program.ofSource source).1) .program
      (s.machine.interpret clock fuel (Program.ofSource source).1) →
    (s.entering clock source).LeadsWithin 0 later

/-- Sources that do not name the clock cannot be told what it says: they never get hold of the host
function, which stays where it is in the globals. -/
theorem History.clockless_law {reporter : Reporter} (h : History clock (.new reporter) es s)
    (clockless : ∀ e ∈ es, e.Clockless) : ClocklessLaw clock reporter es s := by
  obtain ⟨machine, alike⟩ := h.clockless .initial clockless
  have idle : (Moment.idle s.machine).Within .clockless .initial := .idle machine.agree
  refine ⟨alike, fun named _ _ => run_clock machine named, idle.onlyClock machine, ?_, ?_⟩
  · intro source now named leads
    obtain ⟨within, after⟩ := machine.moments named.granted leads
    exact within.onlyClock after
  · exact Moment.leadsWithin_of_run clock _ _ s.machine .program _

/-- A source that makes a function, with the clock's name in a string. -/
def clockInString : String :=
  "fun f(a)\x7breturn a+\"clock\";\x7d"

/-- A source that calls the function of another one, with the clock's name in a comment. -/
def clockInComment : String :=
  "print f(\"no \");-f; // clock"

/-- In a string or a comment, the clock's name is no identifier, so the two sources do the same with
any clock. -/
theorem clock_beside_identifiers :
    Clockless clockInString ∧ Clockless clockInComment ∧
    ∃ s, (Moment.idle s.machine).OnlyClock ∧ ∀ clock,
      History clock (.new .plain)
        [.run clockInString .success "" "",
          .run clockInComment .runtimeError "no clock\n"
            "Operand must be a number.\n[line 1]\n"] s := by
  have clean : (Program.ofSource clockInString).2 = [] := by cbv
  have clean' : (Program.ofSource clockInComment).2 = [] := by cbv
  obtain ⟨completion, m, e, m', first, printed, second, printed', text⟩ : ∃ completion m e m',
      Machine.initial.interpret (fun _ => 0) 20 (Program.ofSource clockInString).1 =
        .ok completion m ∧ Text.unlines m.lines = "" ∧
      m.interpret (fun _ => 0) 20 (Program.ofSource clockInComment).1 = .error e m' ∧
      Text.unlines m'.lines = "no clock\n" ∧ e.text = "Operand must be a number.\n[line 1]" :=
    ⟨_, _, _, _, by cbv, by cbv, by cbv, by cbv, rfl⟩
  have made : (Event.run clockInString .success "" "").Takes (fun _ => 0) (.new .plain)
      { Session.new .plain with machine := m } :=
    .run (run_eq_some_iff.mpr (.succeeded rfl clean first)) printed String.append_empty.symm
  have ended : run (fun _ => 0) 20 clockInComment { Session.new .plain with machine := m } = _ :=
    run_eq_some_iff.mpr (.failed rfl clean' second)
  have output : Text.unlines m'.lines = Text.unlines m.lines ++ "no clock\n" := by
    rw [printed, printed', String.empty_append]
  have errors : Text.unlines [e.text] = "Operand must be a number.\n[line 1]\n" :=
    congrArg (fun text => Text.unlines [text]) text
  have called : (Event.run clockInComment .runtimeError "no clock\n"
      "Operand must be a number.\n[line 1]\n").Takes _ _ _ :=
    .run ended output errors
  have h := History.cons made (.cons called (.nil _))
  have clockless : Clockless clockInString := .of_tokens (by cbv)
  have clockless' : Clockless clockInComment := .of_tokens (by cbv)
  have law := h.clockless_law (List.forall_mem_cons.mpr
    ⟨clockless, List.forall_mem_singleton.mpr clockless'⟩)
  exact ⟨clockless, clockless', _, law.between, law.history⟩

end Session

end Lox
