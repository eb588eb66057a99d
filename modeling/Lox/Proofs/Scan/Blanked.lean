import Lox.Proofs.Scan.Boundaries
import Lox.Proofs.Scan.Spans
import Lox.Syntax.Program

/-!
# Characters that start no token

A character that starts no token is reported and has no other effect: with blanks in its place, all
other items are the same. Tokens end in front of it as they end in front of a blank, and the same
character inside a string or a comment is not reported and stays.
-/

namespace Lox

/-- The error is about a character that starts no token. -/
def LexicalError.isUnrecognized (e : LexicalError) : Bool :=
  match e.cause with
  | .unrecognized _ => true
  | .unterminatedString => false

namespace Item

/-- The item reports a character that starts no token. -/
def isUnrecognized : Item → Bool
  | .ok _ => false
  | .error e => e.isUnrecognized

/-- The offsets of the characters that are reported to start no token. -/
def unrecognized (items : List Item) : List Nat :=
  (items.filter isUnrecognized).map fun item => item.span.start

end Item

/-- The text with blanks in place of the characters at some offsets, as many as each has bytes. -/
def blankOut (offsets : List Nat) (offset : Nat) : List Char → List Char
  | [] => []
  | c :: cs =>
    (if offset ∈ offsets then List.replicate c.utf8Size ' ' else [c]) ++
      blankOut offsets (offset + c.utf8Size) cs

/-- The source with blanks in place of the characters that start no token. -/
def blanked (source : String) : String :=
  String.ofList (blankOut (Item.unrecognized (scan source)) 0 source.toList)

namespace Lexicon

variable {before text rest rest' gap cs : List Char} {c : Char} {kind : Kind}
  {literal : Option Literal} {items : List Item} {offsets : List Nat}

/-- None of the offsets is in the text, which stands behind another one. -/
def Spared (offsets : List Nat) (before text : List Char) : Prop :=
  ∀ place ∈ offsets, place < bytes before ∨ bytes (before ++ text) ≤ place

/-- A text without any of the offsets in it stays as it is. -/
lemma Spared.blankOut_append (h : Spared offsets before text) (rest : List Char) :
    blankOut offsets (bytes before) (text ++ rest) =
      text ++ blankOut offsets (bytes (before ++ text)) rest := by
  induction text generalizing before with
  | nil => rw [List.append_nil, List.nil_append, List.nil_append]
  | cons c text ih =>
    have pos := c.utf8Size_pos
    have place : bytes before + c.utf8Size = bytes (before ++ [c]) := by
      rw [bytes_append, bytes_singleton]
    rw [Spared, List.append_cons] at h
    have other : bytes before ∉ offsets := by
      intro mem
      have := h (bytes before) mem
      rw [bytes_append _ text, ← place] at this
      omega
    have further : Spared offsets (before ++ [c]) text := by
      intro offset mem
      refine (h offset mem).imp_left fun lt => ?_
      rw [← place]
      omega
    rw [List.cons_append, blankOut, if_neg other, place, ih further, ← List.append_cons]
    rfl

/-- The texts are the same up to a blank in the second one, where the first one has a character that
is no line feed. -/
inductive Alike : List Char → List Char → Prop where
  | nil :
    Alike [] []
  | same (c : Char) {cs cs' : List Char} :
    Alike cs cs' →
    Alike (c :: cs) (c :: cs')
  | blank {c : Char} (cs cs' : List Char) :
    c ≠ '\n' →
    Alike (c :: cs) (' ' :: cs')

/-- Texts with the same text in front are alike if those behind it are. -/
lemma Alike.append (h : Alike rest rest') (text : List Char) :
    Alike (text ++ rest) (text ++ rest') := by
  induction text with
  | nil => exact h
  | cons c text ih => exact .same c ih

/-- Blanks may stand for a character. -/
lemma Alike.blanks (other : c ≠ '\n') (rest rest' : List Char) :
    Alike (c :: rest) (List.replicate c.utf8Size ' ' ++ rest') := by
  obtain ⟨n, size⟩ := Nat.exists_eq_add_of_lt c.utf8Size_pos
  rw [size, Nat.zero_add, List.replicate_succ]
  exact .blank _ _ other

/-- Comments end in the same places. -/
lemma Gap.alike (h : Gap gap rest) (alike : Alike rest rest') : Gap gap rest' := by
  induction h with
  | nil _ => exact .nil rest'
  | blank blank _ ih => exact .blank blank (ih alike)
  | @comment inside text rest free ends _ ih =>
    refine .comment free ?_ (ih alike)
    cases text with
    | nil =>
      cases alike with
      | nil => exact nofun
      | same c _ => exact ends
      | @blank c _ _ other => exact absurd (ends c rfl) other
    | cons c text => exact ends

/-- Without blanks, what stands in the second text stands in the first one. -/
lemma Alike.of_solid {more : List Char} (h : Alike rest (more ++ rest'))
    (solid : ∀ c ∈ more, Solid c) : ∃ later, rest = more ++ later := by
  induction more generalizing rest with
  | nil => exact ⟨rest, rfl⟩
  | cons c more ih =>
    obtain ⟨first, others⟩ := List.forall_mem_cons.mp solid
    cases h with
    | same _ alike =>
      obtain ⟨later, rfl⟩ := ih alike others
      exact ⟨later, rfl⟩
    | blank _ _ _ => exact absurd (Piece.isGap_iff.mp rfl) first.1

/-- A token is the same piece in front of a text that is alike. -/
lemma Rule.cuts_alike (rule : Rule text kind literal) (skipped : Longest Gap gap (text ++ rest))
    (longest : Longest (fun text _ => Lexeme text) text rest) (alike : Alike rest rest') :
    ∃ piece, Cuts text rest' piece ∧ ∀ start stop : Position,
      piece.item? text start stop =
        some (.ok ⟨kind, String.ofList text, literal, stop.line,
          ⟨start.offset, stop.offset - start.offset⟩⟩) := by
  have slash : Solid '/' := solid_iff.mpr (by decide)
  refine rule.cuts (rule.longest_gap ?_) (rule.longest ?_)
  · rintro rfl comment
    obtain ⟨others, rfl⟩ := List.head?_eq_some_iff.mp comment
    have alike : Alike rest (['/'] ++ others) := alike
    obtain ⟨later, rfl⟩ := alike.of_solid (List.forall_mem_singleton.mpr slash)
    exact skipped.not_comment rfl
  · rintro c more rest'' rfl solid
    obtain ⟨later, eq⟩ := alike.of_solid solid
    exact longest.not_longer more eq

/-- No item starts before the text that is cut. -/
lemma Tokenized.le_start (h : Tokenized before cs items) :
    ∀ item ∈ items, bytes before ≤ item.span.start := by
  have behind := (scanFrom_ordered (Position.start.after before) cs).1
  rw [h.scanFrom_eq, start_after] at behind
  exact behind

/-- The offsets are those of the characters behind a text that start no token. -/
def Marks (offsets : List Nat) (before : List Char) (items : List Item) : Prop :=
  ∀ place, bytes before ≤ place → (place ∈ offsets ↔ place ∈ Item.unrecognized items)

/-- The offsets leave alone what stands in front of the items. -/
lemma Marks.spared (h : Marks offsets before items)
    (behind : ∀ item ∈ items, bytes (before ++ text) ≤ item.span.start) :
    Spared offsets before text := by
  intro place mem
  by_cases later : bytes before ≤ place
  · obtain ⟨item, inside, rfl⟩ := List.mem_map.mp ((h place later).mp mem)
    exact .inr (behind item (List.mem_of_mem_filter inside))
  · exact .inl (Nat.lt_of_not_le later)

/-- The offsets mark the items also behind a longer text, as long as the items are there. -/
lemma Marks.append (h : Marks offsets before items) : Marks offsets (before ++ text) items := by
  intro place behind
  rw [bytes_append] at behind
  exact h place (Nat.le_of_add_right_le behind)

/-- Behind a character that starts no token, its own offset does not matter. -/
lemma Marks.behind_error {e : LexicalError} (h : Marks offsets before (.error e :: items))
    (further : e.span.start < bytes (before ++ text)) : Marks offsets (before ++ text) items := by
  intro place behind
  have other : place ≠ e.span.start := Nat.ne_of_gt (Nat.lt_of_lt_of_le further behind)
  rw [h.append place behind, Item.unrecognized, List.filter_cons]
  split
  · rw [List.map_cons, List.mem_cons]
    exact or_iff_right other
  · rfl

/-- Blanks are a gap. -/
lemma gap_replicate (n : Nat) (rest : List Char) : Gap (List.replicate n ' ') rest := by
  induction n with
  | zero => exact .nil rest
  | succ n ih => exact .blank (Piece.isGap_iff.mp rfl) ih

/-- Blanks have one byte each. -/
lemma bytes_replicate (n : Nat) : bytes (List.replicate n ' ') = n := by
  induction n with
  | zero => rfl
  | succ n ih =>
    rw [List.replicate_succ', bytes_append, ih, bytes_singleton]
    rfl

/-- As many blanks as a character has bytes lead to the same place. -/
lemma after_replicate (p : Position) (other : c ≠ '\n') :
    p.after (List.replicate c.utf8Size ' ') = p.after [c] := by
  have offset := Position.offset_after p (List.replicate c.utf8Size ' ')
  have line := Position.line_after p (List.replicate c.utf8Size ' ')
  rw [List.count_replicate, if_neg (by decide)] at line
  change _ = p.offset + bytes (List.replicate c.utf8Size ' ') at offset
  rw [bytes_replicate] at offset
  have same : p.after [c] = ⟨p.offset + c.utf8Size, p.line⟩ := by
    change p.next c = _
    rw [Position.next, if_neg other]
  generalize p.after (List.replicate c.utf8Size ' ') = q at offset line
  rw [same, ← offset]
  exact congrArg (Position.mk q.offset) line

/-- With blanks in place of the characters that start no token, a text is alike, and the other items
are scanned from it. -/
lemma Tokenized.blankOut_eq (h : Tokenized before cs items) (marks : Marks offsets before items) :
    Alike cs (blankOut offsets (bytes before) cs) ∧
      scanFrom (Position.start.after before) (blankOut offsets (bytes before) cs) =
        items.filter (! ·.isUnrecognized) := by
  induction h with
  | @done before gap skipped =>
    have same := (marks.spared (List.forall_mem_singleton.mpr (Nat.le_refl _))).blankOut_append []
    rw [List.append_nil, blankOut, List.append_nil] at same
    rw [same, (Tokenized.done skipped).scanFrom_eq]
    have alike := Alike.nil.append gap
    rw [List.append_nil] at alike
    exact ⟨alike, rfl⟩
  | @token before gap text rest kind literal items skipped rule longest later ih =>
    have marks' : Marks offsets before items := marks
    obtain ⟨alike, scanned⟩ := ih marks'.append.append
    have behind := later.le_start
    rw [List.append_assoc] at behind
    have same := (marks'.spared behind).blankOut_append rest
    rw [List.append_assoc, ← List.append_assoc before, List.append_assoc gap] at same
    obtain ⟨piece, cut, left⟩ := rule.cuts_alike skipped longest alike
    have passed : Gap gap (text ++ blankOut offsets (bytes (before ++ gap ++ text)) rest) :=
      skipped.holds.alike (alike.append text)
    rw [same]
    refine ⟨(alike.append text).append gap, ?_⟩
    rw [passed.scanFrom_cuts before cut, left, scanned]
    dsimp only
    rw [bytes_append _ text, Nat.add_sub_cancel_left]
    rfl
  | @unterminated before gap inside items skipped free later ih =>
    have marks' : Marks offsets before items := marks
    obtain ⟨-, scanned⟩ := ih marks'.append.append
    have behind := later.le_start
    rw [List.append_assoc] at behind
    have same := (marks'.spared behind).blankOut_append []
    rw [blankOut, List.append_nil] at same
    -- Only the end mark follows, so that nothing else changes either.
    have kept : items = items.filter (! ·.isUnrecognized) := later.scanFrom_eq.symm.trans scanned
    rw [same, (Tokenized.unterminated skipped free later).scanFrom_eq]
    have alike := Alike.nil.append (gap ++ '"' :: inside)
    rw [List.append_nil] at alike
    exact ⟨alike, congrArg (_ :: ·) kept⟩
  | @unrecognized before gap rest c items skipped noQuote none later ih =>
    have other : c ≠ '\n' := by
      rintro rfl
      exact skipped.not_blank (Piece.isGap_iff.mp rfl)
    have size : bytes (before ++ gap) + c.utf8Size = bytes (before ++ gap ++ [c]) := by
      rw [bytes_append _ [c], bytes_singleton]
    have pos := c.utf8Size_pos
    let reported : Item := .error (error (before ++ gap) [c] (.unrecognized c))
    have behind : ∀ item ∈ reported :: items, bytes (before ++ gap) ≤ item.span.start := by
      refine List.forall_mem_cons.mpr ⟨Nat.le_refl _, fun item mem => ?_⟩
      have := later.le_start item mem
      omega
    have inside : bytes (before ++ gap) ∈ offsets :=
      (marks.append _ (Nat.le_refl _)).mpr List.mem_cons_self
    have further : bytes (before ++ gap) < bytes (before ++ gap ++ [c]) := by omega
    obtain ⟨alike, scanned⟩ := ih (marks.append.behind_error further)
    rw [(marks.spared behind).blankOut_append, blankOut, if_pos inside, size]
    have alike' := Alike.blanks other rest (blankOut offsets (bytes (before ++ gap ++ [c])) rest)
    refine ⟨alike'.append gap, ?_⟩
    rw [(skipped.holds.alike alike').scanFrom_eq, (gap_replicate _ _).scanFrom_eq,
      after_replicate _ other, ← Position.after_append, ← Position.after_append,
      ← List.append_assoc, scanned]
    rfl

end Lexicon

namespace Item

/-- The tokens are there also without the characters that start none. -/
lemma tokens_filter (items : List Item) :
    tokens (items.filter (! ·.isUnrecognized)) = tokens items := by
  induction items with
  | nil => rfl
  | cons item items ih =>
    cases item with
    | ok token => exact congrArg (token :: ·) ih
    | error e =>
      rw [List.filter_cons]
      split
      · exact ih
      · exact ih

/-- The errors are then those that are not about such characters. -/
lemma errors_filter (items : List Item) :
    errors (items.filter (! ·.isUnrecognized)) = (errors items).filter (! ·.isUnrecognized) := by
  induction items with
  | nil => rfl
  | cons item items ih =>
    cases item with
    | ok token => exact ih
    | error e =>
      change errors (List.filter _ (.error e :: items)) = List.filter _ (e :: errors items)
      rw [List.filter_cons, List.filter_cons, ← ih]
      change errors (if !e.isUnrecognized then _ else _) = if !e.isUnrecognized then _ else _
      split
      · rfl
      · rfl

end Item

open Lexicon

/-- With blanks in place of the characters that start no token, a source has the same tokens and the
same other errors, so that the parser makes the same of it. -/
theorem scan_blanked (source : String) :
    scan (blanked source) = (scan source).filter (! ·.isUnrecognized) ∧
      Item.tokens (scan (blanked source)) = Item.tokens (scan source) ∧
      Item.errors (scan (blanked source)) =
        (Item.errors (scan source)).filter (! ·.isUnrecognized) ∧
      Program.parse (Item.tokens (scan (blanked source))) =
        Program.parse (Item.tokens (scan source)) := by
  have marks : Marks (Item.unrecognized (scan source)) [] (scan source) := fun _ _ => Iff.rfl
  have scanned : scan (blanked source) = (scan source).filter (! ·.isUnrecognized) := by
    rw [scan, blanked, String.toList_ofList]
    exact ((tokenized_scan source).blankOut_eq marks).2
  rw [scanned, Item.tokens_filter, Item.errors_filter]
  exact ⟨rfl, rfl, rfl, rfl⟩

/-- The sign in the comment is not reported and stays. -/
example : blanked "x@é.//@" = "x   .//@" := by
  cbv

end Lox
