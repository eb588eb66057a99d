import Lox.Proofs.Relabel.Parser
import Lox.Token.Scan
import Mathlib

/-!
# Names in other spellings

What a program does is independent of how its names are spelled. If each identifier is respelled,
different ones differently and the name of the host function not at all, then the program ends
exactly when it did, in the same way, and has printed the same lines but for the names of functions.
-/

namespace Lox

/-- The token, with its name in another spelling if it is an identifier. -/
def Token.respell (r : String → String) (t : Token) : Token :=
  if t.kind = .identifier then { t with lexeme := r t.lexeme } else t

/-- The line that a value prints where names are in another spelling. -/
def Value.respelledText (r : String → String) : Value → String
  | .function f => "<fn " ++ r f.name.lexeme ++ ">"
  | v => v.text

section

variable (r : String → String) (injective : Function.Injective r)

/-- The relabelling that respells names and leaves all other tokens alone. -/
def Relabelling.respelling : Relabelling where
  rename := r
  name t := { t with lexeme := r t.lexeme }
  mark := id
  injective := injective
  lexeme _ := rfl

/-- The second machine has printed what the first one has, with names in another spelling. -/
def Machine.Respelled (m m' : Machine) : Prop :=
  m'.lines = m.printed.toList.map (Value.respelledText r)

/-- The second outcome is the first one with names in another spelling. -/
inductive Outcome.Respelled : Outcome Completion → Outcome Completion → Prop where
  | normal {m m' : Machine} :
    m.Respelled r m' →
    Respelled (.ok .normal m) (.ok .normal m')
  | returned {v : Value} {m m' : Machine} :
    m.Respelled r m' →
    Respelled (.ok (.returned v) m) (.ok (.returned (v.relabel (.respelling r injective))) m')
  | undefined {name : String} {token : Token} {m m' : Machine} :
    m.Respelled r m' →
    Respelled (.error ⟨.undefinedVariable name, token⟩ m)
      (.error ⟨.undefinedVariable (r name), { token with lexeme := r token.lexeme }⟩ m')
  | failed {cause : RuntimeCause} {token : Token} {m m' : Machine} :
    (∀ name, cause ≠ .undefinedVariable name) → m.Respelled r m' →
    Respelled (.error ⟨cause, token⟩ m)
      (.error ⟨cause.relabel (.respelling r injective), token⟩ m')
  | exhausted :
    Respelled .exhausted .exhausted

end

namespace Relabelling

variable {r : String → String} {injective : Function.Injective r}

/-- To respell names keeps the kinds and values of tokens. -/
lemma faithful_respelling : (respelling r injective).Faithful :=
  ⟨fun _ => rfl, fun _ => rfl, fun _ => rfl, fun _ => rfl⟩

end Relabelling

section

variable {r : String → String}

/-- A token in another spelling keeps its kind. -/
@[simp]
lemma Token.kind_respell (t : Token) : (t.respell r).kind = t.kind := by
  unfold respell
  split
  · rfl
  · rfl

/-- A token in another spelling keeps its line. -/
@[simp]
lemma Token.line_respell (t : Token) : (t.respell r).line = t.line := by
  unfold respell
  split
  · rfl
  · rfl

/-- A token in another spelling keeps its span. -/
@[simp]
lemma Token.span_respell (t : Token) : (t.respell r).span = t.span := by
  unfold respell
  split
  · rfl
  · rfl

/-- The end mark of respelled tokens is in the same place. -/
lemma Parse.endOf_respell (tokens : List Token) :
    endOf (tokens.map (Token.respell r)) = (endOf tokens).respell r := by
  have kinds : (fun t : Token => decide (t.kind = .eof)) ∘ Token.respell r =
      fun t => decide (t.kind = .eof) := by
    funext t
    rw [Function.comp_apply, t.kind_respell]
  simp only [endOf, List.find?_map, kinds, List.getLast?_map]
  cases tokens.find? (·.kind = .eof) with
  | some eof => rfl
  | none =>
    cases tokens.getLast? with
    | none => rfl
    | some last =>
      simp only [Option.map_none, Option.map_some, Token.line_respell, Token.span_respell]
      rfl

variable {injective : Function.Injective r}

/-- Respelled tokens are parsed into the respelled program. -/
lemma Program.parse_respell (tokens : List Token) :
    (Program.parse (tokens.map (Token.respell r))).1 =
      Stmt.relabelAll (.respelling r injective) (Program.parse tokens).1 := by
  have parsed := Program.parse_token (r := .respelling r injective)
    Relabelling.faithful_respelling (Parse.endOf_respell tokens)
  exact congrArg Prod.fst parsed

/-- A relabelled value prints its line with names in the other spelling. -/
lemma Value.text_respelling (v : Value) :
    (v.relabel (.respelling r injective)).text = v.respelledText r := by
  cases v <;> rfl

/-- A respelled machine has printed respelled lines. -/
lemma Machine.respelled_relabel (m : Machine) :
    m.Respelled r (m.relabel (.respelling r injective)) := by
  simp only [Machine.Respelled, lines, linesFrom, relabel, Array.toList_map, List.drop_zero,
    List.map_map]
  apply List.map_congr_left
  intro v _
  exact v.text_respelling

/-- A machine that has done nothing yet knows only the name of the host function. -/
lemma Machine.initial_respelling (host : r Builtin.clock.name = Builtin.clock.name) :
    Machine.initial.relabel (.respelling r injective) = .initial := by
  have globals : Store.initial.relabel (.respelling r injective) = .initial := by
    simp only [Store.relabel, Store.initial, List.map_toArray, List.map_cons, List.map_nil,
      Scope.relabel, Bindings.relabel, Value.relabel]
    change (⟨#[⟨[(r Builtin.clock.name, _)], none⟩]⟩ : Store) = _
    rw [host]
  simp only [relabel, initial, globals, Array.map_empty]

/-- A relabelled outcome is respelled. -/
lemma Outcome.respelled_relabel (o : Outcome Completion) :
    o.Respelled r injective
      (o.relabel (.respelling r injective) (Completion.relabel (.respelling r injective))) := by
  cases o with
  | ok completion m =>
    cases completion with
    | normal => exact .normal m.respelled_relabel
    | returned v => exact .returned m.respelled_relabel
  | error e m =>
    obtain ⟨cause, token⟩ := e
    cases cause with
    | undefinedVariable name => exact .undefined m.respelled_relabel
    | _ => exact .failed nofun m.respelled_relabel
  | exhausted => exact .exhausted

end

/-- Spellings do not matter: whatever the tokens, the program in them and the one in the respelled
tokens do the same from the beginning, with the same fuel. -/
theorem Program.respelled_runs_alike (r : String → String) (injective : Function.Injective r)
    (host : r Builtin.clock.name = Builtin.clock.name) (tokens : List Token) (clock : Clock)
    (fuel : Nat) :
    Outcome.Respelled r injective
      (Machine.initial.interpret clock fuel (Program.parse tokens).1)
      (Machine.initial.interpret clock fuel
        (Program.parse (tokens.map (Token.respell r))).1) := by
  have run := Machine.interpret_relabel (.respelling r injective) clock fuel
    (Program.parse tokens).1 Machine.initial
  rw [Machine.initial_respelling host, ← Program.parse_respell] at run
  rw [run]
  exact Outcome.respelled_relabel _

/-- Exchanging the names of a function and of an undefined variable exchanges them in what is
printed and in the error. -/
theorem Program.exchanged_names_run_alike :
    Function.Injective (Equiv.swap "a" "c") ∧ Equiv.swap "a" "c" "clock" = "clock" ∧
    ∃ token m,
      Machine.initial.interpret (fun _ => 0) 20
          (Program.parse ((Item.tokens (scan
            "fun a(b) \x7b print a; c = b; \x7d print clock; a(\"\");")).map
              (Token.respell (Equiv.swap "a" "c")))).1 =
        .error ⟨.undefinedVariable "a", token⟩ m ∧
      m.lines = ["<native fn>", "<fn c>"] := by
  have injective : Function.Injective (Equiv.swap "a" "c") := Equiv.injective _
  have host : Equiv.swap "a" "c" "clock" = "clock" := by decide
  obtain ⟨token, m, failed, printed⟩ : ∃ token m,
      Machine.initial.interpret (fun _ => 0) 20
          (Program.parse (Item.tokens (scan
            "fun a(b) \x7b print a; c = b; \x7d print clock; a(\"\");"))).1 =
        .error ⟨.undefinedVariable "c", token⟩ m ∧
      m.printed.toList.map (Value.respelledText (Equiv.swap "a" "c")) =
        ["<native fn>", "<fn c>"] :=
    ⟨_, _, by cbv, by cbv⟩
  have alike := respelled_runs_alike (Equiv.swap "a" "c") injective host
    (Item.tokens (scan "fun a(b) \x7b print a; c = b; \x7d print clock; a(\"\");")) (fun _ => 0) 20
  rw [failed] at alike
  generalize Machine.initial.interpret _ 20 _ = other at alike ⊢
  cases alike with
  | @undefined _ _ _ m' respelled =>
    have exchanged : Equiv.swap "a" "c" "c" = "a" := by decide
    rw [exchanged]
    exact ⟨injective, host, _, m', rfl, respelled.trans printed⟩
  | failed other _ => exact absurd rfl (other "c")

end Lox
