import Lox.Proofs.Scan.Lines
import Lox.Proofs.Scan.Reference
import Mathlib

/-!
# Scanning takes longest matches

`munch` looks at no more than the next two characters behind a piece, and yet the piece is the
longest match: for each rule of the lexical grammar, the character that would make a match longer is
the one at which it stops. `Lexicon.Tokenized.scanFrom_eq` puts the rules together.
-/

namespace Lox

namespace Piece

open Lexicon

section

variable {c : Char} {cs : List Char}

/-- The scanner tells digits. -/
lemma isDigit_iff : c.isDigit = true ↔ Digit c := by
  simp [Char.isDigit, Digit, Char.le_def]

/-- The scanner tells letters. -/
lemma startsWord_iff : startsWord c = true ↔ Letter c := by
  simp [startsWord, Letter, Char.isAlpha, Char.isUpper, Char.isLower, Char.le_def]
  tauto

/-- The scanner tells letters and digits, which go on with a word. -/
lemma continuesWord_iff : continuesWord c = true ↔ Letter c ∨ Digit c := by
  rw [← startsWord_iff, ← isDigit_iff]
  simp [continuesWord, startsWord, Char.isAlphanum, or_right_comm]

/-- The scanner tells blanks. -/
lemma isGap_iff : isGap c = true ↔ Blank c := by
  simp [isGap, Blank]

/-- A digit starts a number. -/
lemma munch_digit (digit : c.isDigit = true) : munch c cs = (number, numberTail cs) := by
  unfold munch
  split
  all_goals first | exact absurd digit (by decide) | rw [if_pos digit]

/-- A letter is no digit. -/
lemma not_isDigit_of_startsWord (starts : startsWord c = true) : ¬ c.isDigit = true := by
  rw [isDigit_iff]
  rintro ⟨low, high⟩
  rcases startsWord_iff.mp starts with ⟨letter, _⟩ | ⟨letter, _⟩ | rfl
  · exact absurd (Char.le_trans letter high) (by decide)
  · exact absurd (Char.le_trans letter high) (by decide)
  · exact absurd high (by decide)

/-- Where a letter stands, there is a word. -/
lemma munch_letter (starts : startsWord c = true) : munch c cs = (word, run continuesWord cs) := by
  have other := not_isDigit_of_startsWord starts
  unfold munch
  split
  all_goals first | exact absurd starts (by decide) | rw [if_neg other, if_pos starts]

/-- Where a blank stands, there is a gap. -/
lemma munch_blank (blank : isGap c = true) : munch c cs = (gap, 0) := by
  rw [isGap_iff] at blank
  rcases blank with rfl | rfl | rfl | rfl | rfl
  all_goals rfl

/-- A character that starts nothing else is a piece of its own. -/
lemma munch_other (noMark : ∀ entry ∈ marks, entry.1 ≠ [c]) (noQuote : c ≠ '"')
    (noDigit : ¬ Digit c) (noLetter : ¬ Letter c) (noBlank : ¬ Blank c) :
    munch c cs = (unrecognized c, 0) := by
  rw [← isDigit_iff] at noDigit
  rw [← startsWord_iff] at noLetter
  rw [← isGap_iff] at noBlank
  unfold munch
  split
  all_goals first
    | rw [if_neg noDigit, if_neg noLetter, if_neg noBlank]
    | exact absurd rfl noQuote
    | exact absurd noMark (by decide)

end

section

variable {p : Char → Bool} {text rest : List Char}

/-- A run takes a text on whose characters it goes on, up to one at which it ends. -/
lemma run_exact (goesOn : ∀ c ∈ text, p c = true) (ends : ∀ c ∈ rest.head?, p c = false) :
    run p (text ++ rest) = text.length := by
  induction text with
  | nil =>
    cases rest with
    | nil => rfl
    | cons c rest => exact run_cons_of_neg (ends c rfl) rest
  | cons c text ih =>
    obtain ⟨first, others⟩ := List.forall_mem_cons.mp goesOn
    rw [List.cons_append, run_cons_of_pos first, ih others, List.length_cons]

/-- Up to the first place of a character, a run goes on. -/
lemma run_ne {d : Char} (free : d ∉ text) (ends : ∀ c ∈ rest.head?, c = d) :
    run (· ≠ d) (text ++ rest) = text.length := by
  refine run_exact (fun c mem => ?_) (fun c first => ?_)
  · exact decide_eq_true (ne_of_mem_of_not_mem mem free)
  · exact decide_eq_false (not_not.mpr (ends c first))

/-- A number without a fraction ends where no digit follows, also not behind a point. -/
lemma numberTail_whole (digits : ∀ c ∈ text, c.isDigit = true)
    (ends : ∀ c ∈ rest.head?, c.isDigit = false)
    (noFraction : ∀ d later, rest = '.' :: d :: later → d.isDigit = false) :
    numberTail (text ++ rest) = text.length := by
  rw [numberTail, run_exact digits ends, List.drop_left]
  split
  · rename_i d later
    rw [noFraction d later rfl]
    rfl
  · rfl

/-- A number goes on with a point and all digits behind it if there is one. -/
lemma numberTail_fraction {d : Char} {further : List Char}
    (digits : ∀ c ∈ text, c.isDigit = true) (digit : d.isDigit = true)
    (more : ∀ c ∈ further, c.isDigit = true) (ends : ∀ c ∈ rest.head?, c.isDigit = false) :
    numberTail (text ++ '.' :: d :: (further ++ rest)) = text.length + 2 + further.length := by
  have point : ∀ c ∈ ('.' :: d :: (further ++ rest)).head?, c.isDigit = false := by
    intro c mem
    cases mem
    rfl
  rw [numberTail, run_exact digits point, List.drop_left]
  change (if d.isDigit then text.length + 2 + run Char.isDigit (further ++ rest)
    else text.length) = _
  rw [if_pos digit, run_exact more ends]

end

end Piece

namespace Lexicon

/-- The first piece of a text and what follows is the text. -/
def Cuts (text rest : List Char) (piece : Piece) : Prop :=
  ∃ c cs, text = c :: cs ∧ Piece.munch c (cs ++ rest) = (piece, cs.length)

variable {before text rest gap : List Char} {piece : Piece} {kind : Kind} {literal : Option Literal}

/-- Scanning goes on behind the first piece. -/
lemma Cuts.scanFrom_eq (h : Cuts text rest piece) (p : Position) :
    scanFrom p (text ++ rest) =
      (piece.item? text p (p.after text)).toList ++ scanFrom (p.after text) rest := by
  obtain ⟨c, cs, rfl, munched⟩ := h
  rw [List.cons_append, scanFrom_cons, munched]
  dsimp only
  rw [List.take_left, List.drop_left]

/-- Gaps are passed over. -/
lemma Gap.scanFrom_eq (h : Gap gap rest) (p : Position) :
    scanFrom p (gap ++ rest) = scanFrom (p.after gap) rest := by
  induction h generalizing p with
  | nil rest => rfl
  | @blank c text rest blank _ ih =>
    have cut : Cuts [c] (text ++ rest) .gap :=
      ⟨c, [], rfl, Piece.munch_blank (Piece.isGap_iff.mpr blank)⟩
    have first := cut.scanFrom_eq p
    rw [List.singleton_append] at first
    rw [List.cons_append, first]
    exact ih _
  | @comment inside text rest free ends _ ih =>
    have cut : Cuts ('/' :: '/' :: inside) (text ++ rest) .gap := by
      refine ⟨'/', '/' :: inside, rfl, ?_⟩
      have length : Piece.run (· ≠ '\n') ('/' :: (inside ++ (text ++ rest))) =
          inside.length + 1 := by
        rw [Piece.run_cons_of_pos rfl, Piece.run_ne free ends]
      exact congrArg (Prod.mk Piece.gap) length
    have first := cut.scanFrom_eq p
    have place : p.after ('/' :: '/' :: (inside ++ text)) =
        (p.after ('/' :: '/' :: inside)).after text :=
      p.after_append ('/' :: '/' :: inside) text
    rw [place, ← ih]
    rw [← List.append_assoc] at first
    exact first

/-- A longer match is none. -/
lemma Longest.not_longer {P : List Char → List Char → Prop} {c : Char} {rest' : List Char}
    (h : Longest P text rest) (more : List Char) (eq : rest = c :: (more ++ rest')) :
    ¬ P (text ++ c :: more) rest' := by
  subst eq
  intro longer
  have := h.longest (List.append_assoc text (c :: more) rest') longer
  rw [List.length_append, List.length_cons] at this
  omega

/-- No blank follows the longest gap. -/
lemma Longest.not_blank {c : Char} (h : Longest Gap gap (c :: rest)) : ¬ Blank c := by
  intro blank
  refine h.not_longer [] rfl (Gap.append ?_ (.blank blank (.nil rest)))
  exact h.holds

/-- A text goes on to the first place of a character, or else to its end. -/
lemma exists_up_to (d : Char) (cs : List Char) :
    ∃ inside later, cs = inside ++ later ∧ d ∉ inside ∧ ∀ c ∈ later.head?, c = d := by
  by_cases mem : d ∈ cs
  · obtain ⟨inside, later, eq, free⟩ := List.eq_append_cons_of_mem mem
    exact ⟨inside, d :: later, eq, free, fun c first => (Option.some.inj first).symm⟩
  · exact ⟨cs, [], (List.append_nil cs).symm, mem, nofun⟩

/-- No comment follows the longest gap. -/
lemma Longest.not_comment (h : Longest Gap gap ('/' :: rest)) : rest.head? ≠ some '/' := by
  intro slash
  obtain ⟨more, rfl⟩ := List.head?_eq_some_iff.mp slash
  obtain ⟨inside, later, rfl, free, ends⟩ := exists_up_to '\n' more
  have comment : Gap ('/' :: '/' :: (inside ++ [])) later := .comment free ends (.nil later)
  rw [List.append_nil] at comment
  refine h.not_longer ('/' :: inside) rfl (Gap.append ?_ comment)
  exact h.holds

/-- A mark is a piece unless a longer one starts in the same place. -/
lemma cuts_mark (mem : (text, kind) ∈ marks)
    (noLonger : ∀ c ∈ rest.head?, ∀ entry ∈ marks, entry.1 ≠ text ++ [c])
    (noComment : text = ['/'] → rest.head? ≠ some '/') : Cuts text rest (.mark kind) := by
  have noEqual : (∃ entry ∈ marks, entry.1 = text ++ ['=']) → rest.head? ≠ some '=' := by
    rintro ⟨entry, mem', eq⟩ first
    exact noLonger '=' first entry mem' eq
  simp only [marks, List.mem_cons, Prod.mk.injEq, List.not_mem_nil, or_false] at mem
  rcases mem with ⟨rfl, rfl⟩ | ⟨rfl, rfl⟩ | ⟨rfl, rfl⟩ | ⟨rfl, rfl⟩ | ⟨rfl, rfl⟩ | ⟨rfl, rfl⟩ |
    ⟨rfl, rfl⟩ | ⟨rfl, rfl⟩ | ⟨rfl, rfl⟩ | ⟨rfl, rfl⟩ | ⟨rfl, rfl⟩ | ⟨rfl, rfl⟩ | ⟨rfl, rfl⟩ |
    ⟨rfl, rfl⟩ | ⟨rfl, rfl⟩ | ⟨rfl, rfl⟩ | ⟨rfl, rfl⟩ | ⟨rfl, rfl⟩ | ⟨rfl, rfl⟩
  all_goals first
    | exact ⟨_, _, rfl, rfl⟩
    | exact ⟨_, _, rfl, if_neg (noEqual (by decide))⟩
    | exact ⟨_, _, rfl, if_neg (noComment rfl)⟩

/-- A word goes on as long as there are letters and digits. -/
lemma cuts_word {c : Char} {cs : List Char} (letter : Letter c)
    (others : ∀ d ∈ cs, Letter d ∨ Digit d) (ends : ∀ d ∈ rest.head?, ¬ Lexeme (c :: cs ++ [d])) :
    Cuts (c :: cs) rest .word := by
  refine ⟨c, cs, rfl, ?_⟩
  rw [Piece.munch_letter (Piece.startsWord_iff.mpr letter), Piece.run_exact]
  · exact fun d mem => Piece.continuesWord_iff.mpr (others d mem)
  · intro d first
    rw [← Bool.not_eq_true, Piece.continuesWord_iff]
    intro more
    refine ends d first (lexeme_word letter ?_)
    exact List.forall_mem_append.mpr ⟨others, List.forall_mem_singleton.mpr more⟩

/-- A keyword is of its own kind. -/
lemma ofWord_of_mem {word : String} (mem : (word, kind) ∈ Kind.keywords) :
    Kind.ofWord word = kind := by
  have all : ∀ entry ∈ Kind.keywords, Kind.ofWord entry.1 = entry.2 := by decide
  exact all _ mem

/-- A word that is no keyword is a name. -/
lemma ofWord_of_not_mem {word : String} (free : ∀ kind, (word, kind) ∉ Kind.keywords) :
    Kind.ofWord word = .identifier := by
  rw [Kind.ofWord]
  cases found : Kind.keywords.lookup word with
  | none => rfl
  | some kind =>
    obtain ⟨before, behind, eq, -⟩ := List.lookup_eq_some_iff.mp found
    refine absurd ?_ (free kind)
    rw [eq]
    exact List.mem_append_right before List.mem_cons_self

/-- What matches a rule, and nothing longer does, is the first piece and leaves the token of the
rule. -/
lemma Rule.cuts (rule : Rule text kind literal) (skipped : Longest Gap gap (text ++ rest))
    (longest : Longest (fun text _ => Lexeme text) text rest) :
    ∃ piece, Cuts text rest piece ∧ ∀ start stop : Position,
      piece.item? text start stop =
        some (.ok ⟨kind, String.ofList text, literal, stop.line,
          ⟨start.offset, stop.offset - start.offset⟩⟩) := by
  have ends : ∀ c ∈ rest.head?, ¬ Lexeme (text ++ [c]) := by
    intro c first
    obtain ⟨later, eq⟩ := List.head?_eq_some_iff.mp first
    exact longest.not_longer [] eq
  cases rule with
  | mark mem =>
    refine ⟨.mark kind, cuts_mark mem ?_ ?_, fun _ _ => rfl⟩
    · intro c first entry mem' eq
      exact ends c first ⟨entry.2, none, .mark (eq ▸ mem')⟩
    · rintro rfl
      exact skipped.not_comment
  | whole some digits =>
    obtain ⟨d, ds, rfl⟩ := List.exists_cons_of_ne_nil some
    obtain ⟨digit, others⟩ := List.forall_mem_cons.mp digits
    refine ⟨.number, ⟨d, ds, rfl, ?_⟩, fun _ _ => rfl⟩
    rw [Piece.munch_digit (Piece.isDigit_iff.mpr digit), Piece.numberTail_whole]
    · exact fun c mem => Piece.isDigit_iff.mpr (others c mem)
    · intro c first
      rw [← Bool.not_eq_true, Piece.isDigit_iff]
      intro more
      refine ends c first ⟨_, _, .whole (List.append_ne_nil_of_left_ne_nil some _) ?_⟩
      exact List.forall_mem_append.mpr ⟨digits, List.forall_mem_singleton.mpr more⟩
    · intro e later eq
      rw [← Bool.not_eq_true, Piece.isDigit_iff]
      intro more
      refine longest.not_longer [e] eq ⟨_, _, .fraction some digits ?_ ?_⟩
      · exact List.cons_ne_nil _ _
      · exact List.forall_mem_singleton.mpr more
  | @fraction digits further some all some' all' =>
    obtain ⟨d, ds, rfl⟩ := List.exists_cons_of_ne_nil some
    obtain ⟨e, es, rfl⟩ := List.exists_cons_of_ne_nil some'
    obtain ⟨digit, others⟩ := List.forall_mem_cons.mp all
    obtain ⟨digit', others'⟩ := List.forall_mem_cons.mp all'
    refine ⟨.number, ⟨d, ds ++ '.' :: e :: es, rfl, ?_⟩, fun _ _ => rfl⟩
    rw [Piece.munch_digit (Piece.isDigit_iff.mpr digit), List.append_assoc, List.cons_append,
      List.cons_append, Piece.numberTail_fraction]
    · rw [List.length_append, List.length_cons, List.length_cons]
      exact congrArg (Prod.mk Piece.number) (by omega)
    · exact fun c mem => Piece.isDigit_iff.mpr (others c mem)
    · exact Piece.isDigit_iff.mpr digit'
    · exact fun c mem => Piece.isDigit_iff.mpr (others' c mem)
    · intro c first
      rw [← Bool.not_eq_true, Piece.isDigit_iff]
      intro more
      refine ends c first ?_
      rw [List.append_assoc, List.cons_append]
      refine ⟨_, _, .fraction some all (List.append_ne_nil_of_left_ne_nil some' _) ?_⟩
      exact List.forall_mem_append.mpr ⟨all', List.forall_mem_singleton.mpr more⟩
  | @string inside free =>
    refine ⟨.string, ⟨'"', inside ++ ['"'], rfl, ?_⟩, fun start stop => ?_⟩
    · have run : Piece.run (· ≠ '"') (inside ++ '"' :: rest) = inside.length :=
        Piece.run_ne free fun c first => (Option.some.inj first).symm
      rw [List.append_assoc, List.singleton_append, Piece.munch, run, List.drop_left,
        if_neg (List.cons_ne_nil _ _), List.length_append]
      rfl
    · rw [Piece.item?, List.tail_cons, List.dropLast_concat]
  | keyword letter others mem =>
    refine ⟨.word, cuts_word letter others ends, fun start stop => ?_⟩
    rw [Piece.item?, ofWord_of_mem mem]
  | identifier letter others free =>
    refine ⟨.word, cuts_word letter others ends, fun start stop => ?_⟩
    rw [Piece.item?, ofWord_of_not_mem free]

/-- A quote that no other follows is a piece with all that follows it. -/
lemma cuts_unterminated {inside : List Char} (free : '"' ∉ inside) :
    Cuts ('"' :: inside) [] .unterminated := by
  refine ⟨'"', inside, rfl, ?_⟩
  have run : Piece.run (· ≠ '"') (inside ++ []) = inside.length := Piece.run_ne free nofun
  rw [Piece.munch, run, List.drop_left, if_pos rfl]

/-- A character with which nothing else begins is a piece. -/
lemma cuts_unrecognized {c : Char} (skipped : Longest Gap gap (c :: rest)) (noQuote : c ≠ '"')
    (none : ∀ text rest', text ++ rest' = c :: rest → ¬ Lexeme text) :
    Cuts [c] rest (.unrecognized c) := by
  have alone : ¬ Lexeme [c] := none [c] rest rfl
  refine ⟨c, [], rfl, Piece.munch_other ?_ noQuote ?_ ?_ skipped.not_blank⟩
  · intro entry mem eq
    exact alone ⟨entry.2, .none, .mark (eq ▸ mem)⟩
  · intro digit
    exact alone ⟨_, _, .whole (List.cons_ne_nil _ _) (List.forall_mem_singleton.mpr digit)⟩
  · intro letter
    exact alone (lexeme_word letter (List.forall_mem_nil _))

/-- The place behind a text, from the beginning of a source. -/
lemma start_after (before : List Char) :
    Position.start.after before = ⟨bytes before, line before⟩ := by
  have offset := Position.offset_after .start before
  have line := Position.line_after .start before
  generalize Position.start.after before = p at offset line
  obtain ⟨offset', line'⟩ := p
  rw [Position.mk.injEq]
  exact ⟨offset.trans (Nat.zero_add _), line.trans (Nat.add_comm _ _)⟩

/-- Texts one behind the other have the bytes of both. -/
lemma bytes_append (text text' : List Char) : bytes (text ++ text') = bytes text + bytes text' := by
  rw [bytes, String.ofList_append, String.utf8ByteSize_append]
  rfl

/-- A character alone has its own bytes. -/
lemma bytes_singleton (c : Char) : bytes [c] = c.utf8Size :=
  String.utf8ByteSize_singleton

/-- Scanning goes on behind a gap and the piece that follows it. -/
lemma Gap.scanFrom_cuts (before : List Char) (skipped : Gap gap (text ++ rest))
    (cut : Cuts text rest piece) :
    scanFrom (Position.start.after before) (gap ++ (text ++ rest)) =
      (piece.item? text ⟨bytes (before ++ gap), line (before ++ gap)⟩
        ⟨bytes (before ++ gap ++ text), line (before ++ gap ++ text)⟩).toList ++
      scanFrom (Position.start.after (before ++ gap ++ text)) rest := by
  rw [skipped.scanFrom_eq, ← Position.after_append, cut.scanFrom_eq, ← Position.after_append,
    start_after, start_after]

/-- Scanning leaves the items that longest matches leave. -/
lemma Tokenized.scanFrom_eq {cs : List Char} {items : List Item}
    (h : Tokenized before cs items) : scanFrom (Position.start.after before) cs = items := by
  induction h with
  | @done before gap skipped =>
    have passed := skipped.holds.scanFrom_eq (Position.start.after before)
    rw [List.append_nil, ← Position.after_append, scanFrom] at passed
    rw [passed, start_after, Lexicon.token, List.append_nil]
    rfl
  | @token before gap text rest kind literal items skipped rule longest _ ih =>
    obtain ⟨piece, cut, left⟩ := rule.cuts skipped longest
    rw [skipped.holds.scanFrom_cuts before cut, left, ih]
    dsimp only
    rw [bytes_append _ text, Nat.add_sub_cancel_left]
    rfl
  | @unterminated before gap inside items skipped free _ ih =>
    have passed : Gap gap ('"' :: inside ++ []) := by
      rw [List.append_nil]
      exact skipped.holds
    have scanned := passed.scanFrom_cuts before (cuts_unterminated free)
    rw [List.append_nil, ih] at scanned
    rw [scanned, Piece.item?]
    dsimp only
    rw [bytes_append _ ('"' :: inside), Nat.add_sub_cancel_left]
    rfl
  | @unrecognized before gap rest c items skipped noQuote none _ ih =>
    have passed : Gap gap ([c] ++ rest) := skipped.holds
    have scanned := passed.scanFrom_cuts before (cuts_unrecognized skipped noQuote none)
    rw [ih, List.singleton_append] at scanned
    rw [scanned, Piece.item?]
    dsimp only
    rw [bytes_append _ [c], Nat.add_sub_cancel_left]
    rfl

end Lexicon

end Lox
