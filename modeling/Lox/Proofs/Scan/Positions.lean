import Lox.Proofs.Scan.Cursor
import Lox.Proofs.Scan.Spans

/-!
# The positions of items

Each item covers a text of the source, which is empty for the end mark only, and its line is the one
on which this text ends, wherever line feeds stand: in strings, in comments or between items. So the
items go through the source one behind the other, and whatever is cut out by their spans is there.
-/

namespace Lox

/-- The line of an item. -/
def Item.line : Item → Nat
  | .ok token => token.line
  | .error e => e.line

/-- The item is the end mark. -/
def Item.IsEnd (item : Item) : Prop :=
  ∃ token, item = .ok token ∧ token.kind = .eof

namespace Lexicon

/-- The item covers a text in the source, and is on the line on which the text ends. -/
structure Places (source : List Char) (item : Item) (before text rest : List Char) : Prop where
  source : source = before ++ text ++ rest
  span : item.span = ⟨bytes before, bytes text⟩
  line : item.line = Lexicon.line (before ++ text)
  empty : text = [] ↔ item.IsEnd

variable {before text rest gap cs : List Char} {kind : Kind} {literal : Option Literal}
  {items : List Item}

/-- A token that matches a rule is no end mark. -/
lemma Rule.kind_ne_eof (rule : Rule text kind literal) : kind ≠ .eof := by
  cases rule with
  | mark mem =>
    have others : ∀ entry ∈ marks, entry.2 ≠ .eof := by decide
    exact others _ mem
  | whole _ _ => exact nofun
  | fraction _ _ _ _ => exact nofun
  | string _ => exact nofun
  | keyword _ _ mem =>
    have others : ∀ entry ∈ Kind.keywords, entry.2 ≠ .eof := by decide
    exact others _ mem
  | identifier _ _ _ => exact nofun

/-- A token is in its place between what stands before and behind its text. -/
lemma places_token (rest : List Char) (before : List Char) (rule : Rule text kind literal) :
    Places (before ++ text ++ rest) (.ok (token before text kind literal)) before text rest := by
  refine ⟨rfl, rfl, rfl, iff_of_false rule.ne_nil ?_⟩
  rintro ⟨_, ⟨⟩, isEnd⟩
  exact rule.kind_ne_eof isEnd

/-- An error is in its place between what stands before and behind the text that it is about. -/
lemma places_error (rest : List Char) (before : List Char) (some : text ≠ [])
    (cause : LexicalCause) :
    Places (before ++ text ++ rest) (.error (error before text cause)) before text rest := by
  refine ⟨rfl, rfl, rfl, iff_of_false some ?_⟩
  rintro ⟨_, ⟨⟩, _⟩

/-- All items that a text is cut into are in places of what stands before and of the text. -/
lemma Tokenized.places (h : Tokenized before cs items) :
    ∀ item ∈ items, ∃ earlier text rest, Places (before ++ cs) item earlier text rest := by
  induction h with
  | @done before gap _ =>
    rw [List.forall_mem_singleton]
    refine ⟨before ++ gap, [], [], ?_, rfl, rfl, iff_of_true rfl ⟨_, rfl, rfl⟩⟩
    rw [List.append_nil, List.append_nil]
  | @token before gap text rest kind literal items _ rule _ _ ih =>
    have same : before ++ (gap ++ (text ++ rest)) = before ++ gap ++ text ++ rest := by
      simp only [List.append_assoc]
    rw [same]
    exact List.forall_mem_cons.mpr ⟨⟨_, _, _, places_token rest (before ++ gap) rule⟩, ih⟩
  | @unterminated before gap inside items _ _ _ ih =>
    rw [List.append_nil] at ih
    rw [← List.append_assoc]
    have placed := places_error [] (before ++ gap) (List.cons_ne_nil '"' inside) .unterminatedString
    rw [List.append_nil] at placed
    exact List.forall_mem_cons.mpr ⟨⟨_, _, _, placed⟩, ih⟩
  | @unrecognized before gap rest c items _ _ _ _ ih =>
    have same : before ++ (gap ++ c :: rest) = before ++ gap ++ [c] ++ rest := by
      simp only [List.append_assoc, List.singleton_append]
    rw [same]
    have placed := places_error rest (before ++ gap) (List.cons_ne_nil c []) (.unrecognized c)
    exact List.forall_mem_cons.mpr ⟨⟨_, _, _, placed⟩, ih⟩

variable {source : List Char} {item : Item}

/-- What is covered is the slice from the one end of the span to the other. -/
lemma Places.slice (h : Places source item before text rest) :
    slice? (String.ofList source) item.span.start item.span.stop = some (String.ofList text) := by
  rw [h.source, h.span, Span.stop]
  dsimp only
  rw [← bytes_append]
  exact slice?_ofList before text rest

/-- What stands up to the end of an item is the slice up to there. -/
lemma Places.slice_zero (h : Places source item before text rest) :
    slice? (String.ofList source) 0 item.span.stop = some (String.ofList (before ++ text)) := by
  rw [h.source, h.span, Span.stop]
  dsimp only
  rw [← bytes_append]
  exact slice?_ofList [] (before ++ text) rest

/-- Only the end mark covers no bytes. -/
lemma Places.length (h : Places source item before text rest) :
    item.span.length = 0 ↔ item.IsEnd := by
  rw [← h.empty, h.span]
  dsimp only
  rw [bytes, String.utf8ByteSize_eq_zero_iff, String.ofList_eq_empty_iff]

end Lexicon

/-- A slice is cut out between characters. -/
lemma isValid_of_slice? {source text : String} {start stop : Nat}
    (cut : slice? source start stop = some text) :
    String.Pos.Raw.IsValid source ⟨start⟩ ∧ String.Pos.Raw.IsValid source ⟨stop⟩ := by
  rw [slice?] at cut
  split at cut
  · next valid => exact valid.2
  · cases cut

/-- Where the items of a source are, and on which lines. -/
structure PositionLaw (source : String) : Prop where
  /-- No slice, difference or line number fails on the way, and all loops end. -/
  safe : Cursor.scan? source = some (scan source)
  ordered : (scan source).Pairwise fun item item' =>
    item.span.start < item'.span.start ∧ item.span.stop ≤ item'.span.start
  empty : ∀ item ∈ scan source, item.span.length = 0 ↔ item.IsEnd
  boundaries : ∀ item ∈ scan source, String.Pos.Raw.IsValid source ⟨item.span.start⟩ ∧
    String.Pos.Raw.IsValid source ⟨item.span.stop⟩
  /-- The line of an item is one more than the line feeds up to its end. -/
  line : ∀ item ∈ scan source, ∃ text,
    slice? source 0 item.span.stop = some text ∧ item.line = 1 + text.toList.count '\n'

/-- The items of a source are in the places where they were cut. -/
lemma places_of_mem_scan {source : String} {item : Item} (mem : item ∈ scan source) :
    ∃ before text rest, Lexicon.Places source.toList item before text rest :=
  (tokenized_scan source).places item mem

/-- Only the last item is empty, so that each one starts further on than the one before. -/
lemma scan_increasing (source : String) : (scan source).Pairwise fun item item' =>
    item.span.start < item'.span.start ∧ item.span.stop ≤ item'.span.start := by
  have ordered := (scanFrom_ordered .start source.toList).2
  obtain ⟨items, line, eq, noEnd⟩ := scan_eq_append source
  have further : ∀ item ∈ items, item.span.start < item.span.stop := by
    intro item mem
    have mem' : item ∈ scan source := by
      rw [eq]
      exact List.mem_append_left _ mem
    obtain ⟨before, text, rest, placed⟩ := places_of_mem_scan mem'
    have filled : item.span.length ≠ 0 := by
      intro empty
      obtain ⟨token, rfl, isEnd⟩ := placed.length.mp empty
      exact noEnd token mem isEnd
    exact Nat.lt_add_of_pos_right (Nat.pos_of_ne_zero filled)
  change (scan source).Pairwise _ at ordered
  rw [eq, List.pairwise_append] at ordered ⊢
  obtain ⟨inner, last, across⟩ := ordered
  refine ⟨?_, List.pairwise_singleton _ _, fun item mem item' mem' => ?_⟩
  · refine inner.imp_of_mem fun mem _ behind => ?_
    exact ⟨Nat.lt_of_lt_of_le (further _ mem) behind, behind⟩
  · have behind := across item mem item' mem'
    exact ⟨Nat.lt_of_lt_of_le (further item mem) behind, behind⟩

/-- With less than 2³² lines in the source, scanning is safe, and the items are in order, between
characters and on the lines on which they end. -/
theorem scan_positions {source : String} (few : source.toList.count '\n' < 2 ^ 32 - 1) :
    PositionLaw source where
  safe := Cursor.scan?_eq few
  ordered := scan_increasing source
  empty item mem := by
    obtain ⟨before, text, rest, placed⟩ := places_of_mem_scan mem
    exact placed.length
  boundaries item mem := by
    obtain ⟨before, text, rest, placed⟩ := places_of_mem_scan mem
    have cut := placed.slice
    rw [String.ofList_toList] at cut
    exact isValid_of_slice? cut
  line item mem := by
    obtain ⟨before, text, rest, placed⟩ := places_of_mem_scan mem
    have cut := placed.slice_zero
    rw [String.ofList_toList] at cut
    refine ⟨_, cut, ?_⟩
    rw [placed.line, String.toList_ofList]
    exact Nat.add_comm _ 1

/-- A comment with a letter of two bytes, a string over two lines, a word, an open string and the
end. -/
theorem scan_positions_of_lines :
    Cursor.scan? "// é\n\"a\nb\" x\n\"c" = some (scan "// é\n\"a\nb\" x\n\"c") ∧
      (scan "// é\n\"a\nb\" x\n\"c").map
          (fun item => (item.span.start, item.span.stop, item.line)) =
        [(6, 11, 3), (12, 13, 3), (14, 16, 4), (16, 16, 4)] := by
  have few : "// é\n\"a\nb\" x\n\"c".toList.count '\n' < 2 ^ 32 - 1 := by decide
  exact ⟨(scan_positions few).safe, by cbv⟩

end Lox
