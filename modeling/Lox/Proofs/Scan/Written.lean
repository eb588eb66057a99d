import Lox.Proofs.Scan.Boundaries

/-!
# Scanning what was written

The texts of tokens are written one behind the other, with blanks and comments between them. Since a
token ends at a blank, scanning gives back the tokens, whatever the texts and the comments are.
-/

namespace Lox

namespace Lexicon

/-- The text of a token, with its kind and its value. -/
structure Entry where
  text : List Char
  kind : Kind
  literal : Option Literal
  rule : Rule text kind literal

/-- The token is that of the entry, wherever it stands. -/
structure Entry.Is (entry : Entry) (token : Token) : Prop where
  lexeme : token.lexeme = String.ofList entry.text
  kind : token.kind = entry.kind
  literal : token.literal = entry.literal

/-- Blanks and comments, each comment with the line feed that ends it. -/
inductive Spacing : List Char → Prop where
  | nil :
    Spacing []
  | blank {c : Char} {text : List Char} :
    Blank c → Spacing text →
    Spacing (c :: text)
  | comment {inside text : List Char} :
    '\n' ∉ inside → Spacing text →
    Spacing ('/' :: '/' :: (inside ++ '\n' :: text))

/-- Blanks and comments at the end of a source, where the last comment may go on to the end. -/
inductive Trailer : List Char → Prop where
  | closed {text : List Char} :
    Spacing text →
    Trailer text
  | comment {text inside : List Char} :
    Spacing text → '\n' ∉ inside →
    Trailer (text ++ '/' :: '/' :: inside)

/-- If the text is not empty, it begins with a blank. -/
def BlankFirst (text : List Char) : Prop :=
  ∀ c ∈ text.head?, Blank c

/-- Blanks and comments between two tokens. The first of them is a blank. -/
structure Separator (text : List Char) : Prop where
  spacing : Spacing text
  some : text ≠ []
  blankFirst : BlankFirst text

/-- The text begins with the first entry and ends behind the last one. -/
inductive Joined : List Entry → List Char → Prop where
  | last (entry : Entry) {trailer : List Char} :
    Trailer trailer → BlankFirst trailer →
    Joined [entry] (entry.text ++ trailer)
  | more (entry : Entry) {entries : List Entry} {separator later : List Char} :
    Separator separator → Joined entries later →
    Joined (entry :: entries) (entry.text ++ (separator ++ later))

/-- The entries are written as the text. -/
inductive Written : List Entry → List Char → Prop where
  | none {text : List Char} :
    Trailer text →
    Written [] text
  | some {entries : List Entry} {leading text : List Char} :
    Spacing leading → Joined entries text →
    Written entries (leading ++ text)

variable {text rest : List Char} {entries : List Entry}

/-- Spacing is passed over, whatever follows. -/
lemma Spacing.gap (h : Spacing text) (rest : List Char) : Gap text rest := by
  induction h with
  | nil => exact .nil rest
  | blank blank _ ih => exact .blank blank ih
  | comment free _ ih =>
    refine .comment free ?_ (.blank (Piece.isGap_iff.mp rfl) ih)
    exact fun c mem => (Option.some.inj mem).symm

/-- Everything at the end of a source is passed over. -/
lemma Trailer.gap (h : Trailer text) : Gap text [] := by
  cases h with
  | closed spacing => exact spacing.gap []
  | @comment text inside spacing free =>
    have last : Gap ('/' :: '/' :: (inside ++ [])) [] := .comment free nofun (.nil [])
    rw [List.append_nil] at last
    exact Gap.append (spacing.gap _) last

/-- Nothing but the end mark is found at the end of a source. -/
lemma Trailer.scanFrom_eq (h : Trailer text) (p : Position) :
    scanFrom p text = [.ok (.endMark (p.after text).line (p.after text).offset)] := by
  have passed := h.gap.scanFrom_eq p
  rw [List.append_nil, scanFrom] at passed
  exact passed

/-- In front of a blank, a token is scanned as it is. -/
lemma Entry.scanFrom_eq (entry : Entry) (ends : BlankFirst rest) (p : Position) :
    ∃ token, scanFrom p (entry.text ++ rest) = .ok token :: scanFrom (p.after entry.text) rest ∧
      entry.Is token := by
  have noComment : entry.text = ['/'] → rest.head? ≠ some '/' := by
    intro _ slash
    have blank := Piece.isGap_iff.mpr (ends '/' slash)
    exact absurd blank (by decide)
  have longest : Longest (fun text _ => Lexeme text) entry.text rest := by
    refine entry.rule.longest fun c more rest' split solid _ => ?_
    subst split
    exact (solid c List.mem_cons_self).1 (ends c rfl)
  obtain ⟨piece, cut, left⟩ := entry.rule.cuts (entry.rule.longest_gap noComment) longest
  let stop := p.after entry.text
  let token : Token := ⟨entry.kind, String.ofList entry.text, entry.literal, stop.line,
    ⟨p.offset, stop.offset - p.offset⟩⟩
  refine ⟨token, ?_, ⟨rfl, rfl, rfl⟩⟩
  rw [cut.scanFrom_eq, left]
  rfl

/-- A separator begins with a blank whatever follows. -/
lemma Separator.blankFirst_append (h : Separator text) (rest : List Char) :
    BlankFirst (text ++ rest) := by
  obtain ⟨c, cs, rfl⟩ := List.exists_cons_of_ne_nil h.some
  exact h.blankFirst

/-- The tokens of entries that are joined are scanned one after the other. -/
lemma Joined.scanFrom_eq (h : Joined entries text) (p : Position) :
    ∃ tokens, scanFrom p text =
        (tokens ++ [.endMark (p.after text).line (p.after text).offset]).map .ok ∧
      List.Forall₂ Entry.Is entries tokens := by
  induction h generalizing p with
  | last entry trailer ends =>
    obtain ⟨token, scanned, is⟩ := entry.scanFrom_eq ends p
    refine ⟨[token], ?_, .cons is .nil⟩
    rw [scanned, trailer.scanFrom_eq, p.after_append]
    rfl
  | more entry separator _ ih =>
    obtain ⟨token, scanned, is⟩ := entry.scanFrom_eq (separator.blankFirst_append _) p
    obtain ⟨tokens, scanned', all⟩ := ih ((p.after entry.text).after _)
    refine ⟨token :: tokens, ?_, .cons is all⟩
    rw [scanned, (separator.spacing.gap _).scanFrom_eq, scanned', p.after_append,
      Position.after_append]
    rfl

/-- What is written is scanned to its entries and an end mark. -/
lemma Written.scanFrom_eq (h : Written entries text) (p : Position) :
    ∃ tokens, scanFrom p text =
        (tokens ++ [.endMark (p.after text).line (p.after text).offset]).map .ok ∧
      List.Forall₂ Entry.Is entries tokens := by
  cases h with
  | none trailer => exact ⟨[], trailer.scanFrom_eq p, .nil⟩
  | some leading joined =>
    rw [(leading.gap _).scanFrom_eq, p.after_append]
    exact joined.scanFrom_eq _

end Lexicon

open Lexicon

/-- Scanning what was written gives back one token for each entry, in their order, and no errors. -/
theorem scan_written {entries : List Entry} {source : String}
    (written : Written entries source.toList) :
    ∃ tokens, scan source =
        (tokens ++ [.endMark (line source.toList) source.utf8ByteSize]).map .ok ∧
      List.Forall₂ Entry.Is entries tokens := by
  have scanned := written.scanFrom_eq .start
  rw [start_after, bytes, String.ofList_toList] at scanned
  exact scanned

/-- A quote in a comment, comment marks in a string, a slash in front of a blank, two marks that
would be one, and a comment that goes on to the end. -/
theorem scan_written_between_comments :
    ∃ entries, entries.map Entry.text =
        [['1', '.', '5'], ['"', '/', '/', '\n', '"'], ['/'], ['!'], ['='], ['o', 'r']] ∧
      Written entries "//\"é\n1.5\t// =\n\"//\n\" /\r! = or // é".toList ∧
      ∃ tokens, scan "//\"é\n1.5\t// =\n\"//\n\" /\r! = or // é" =
          (tokens ++ [.endMark 4 35]).map .ok ∧
        List.Forall₂ Entry.Is entries tokens := by
  let number : Entry := ⟨['1', '.', '5'], .number, _, @Rule.fraction ['1'] ['5']
    (by decide) (by simp [Digit]) (by decide) (by simp [Digit])⟩
  let string : Entry := ⟨['"', '/', '/', '\n', '"'], .string, _,
    @Rule.string ['/', '/', '\n'] (by decide)⟩
  let slash : Entry := ⟨['/'], .slash, none, .mark (by decide)⟩
  let bang : Entry := ⟨['!'], .bang, none, .mark (by decide)⟩
  let equal : Entry := ⟨['='], .equal, none, .mark (by decide)⟩
  let word : Entry := ⟨['o', 'r'], .kwOr, none, .keyword (by simp [Letter]) (by simp [Letter])
    (by decide)⟩
  have blank : ∀ c, Piece.isGap c = true → Separator [c] := by
    intro c isGap
    have isBlank := Piece.isGap_iff.mp isGap
    refine ⟨.blank isBlank .nil, List.cons_ne_nil _ _, ?_⟩
    rintro _ ⟨⟩
    exact isBlank
  have first : Spacing ['/', '/', '"', 'é', '\n'] :=
    @Spacing.comment ['"', 'é'] [] (by decide) .nil
  have second : Separator ['\t', '/', '/', ' ', '=', '\n'] := by
    refine ⟨?_, List.cons_ne_nil _ _, ?_⟩
    · exact .blank (Piece.isGap_iff.mp rfl) (@Spacing.comment [' ', '='] [] (by decide) .nil)
    · rintro _ ⟨⟩
      exact Piece.isGap_iff.mp rfl
  have last : Joined [word] ['o', 'r', ' ', '/', '/', ' ', 'é'] := by
    have comment : Trailer ([' '] ++ '/' :: '/' :: [' ', 'é']) :=
      .comment (blank ' ' rfl).spacing (by decide)
    refine .last word comment ?_
    rintro _ ⟨⟩
    exact Piece.isGap_iff.mp rfl
  have written : Written [number, string, slash, bang, equal, word]
      "//\"é\n1.5\t// =\n\"//\n\" /\r! = or // é".toList :=
    .some first (.more number second (.more string (blank ' ' rfl) (.more slash (blank '\r' rfl)
      (.more bang (blank ' ' rfl) (.more equal (blank ' ' rfl) last)))))
  exact ⟨_, rfl, written, scan_written written⟩

end Lox
