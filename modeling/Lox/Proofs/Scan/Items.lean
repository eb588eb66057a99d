import Lox.Proofs.Scan.Lines

/-!
# Scanned items

The items of a source come in its order, each behind the one before, and the last one of them is the
only end mark.
-/

namespace Lox

/-- No word is an end mark. -/
lemma Kind.ofWord_ne_eof (word : String) : Kind.ofWord word ≠ .eof := by
  have others : ∀ entry ∈ keywords, entry.2 ≠ .eof := by decide
  rw [ofWord]
  cases found : keywords.lookup word with
  | none => exact nofun
  | some kind =>
    obtain ⟨before, behind, eq, -⟩ := List.lookup_eq_some_iff.mp found
    refine others (word, kind) ?_
    rw [eq]
    exact List.mem_append_right before List.mem_cons_self

/-- The bytes that an item covers. -/
def Item.span : Item → Span
  | .ok token => token.span
  | .error e => e.span

namespace Piece

/-- A longer or shorter mark is no end mark. -/
lemma withEqual_ne_eof {long short : Kind} (long_ne : long ≠ .eof) (short_ne : short ≠ .eof)
    (cs : List Char) : (withEqual cs long short).1 ≠ mark .eof := by
  rw [withEqual]
  split
  · exact mt Piece.mark.inj long_ne
  · exact mt Piece.mark.inj short_ne

/-- No piece is an end mark. -/
lemma munch_ne_eof (c : Char) (cs : List Char) : (munch c cs).1 ≠ mark .eof := by
  unfold munch
  split
  all_goals first
    | exact mt mark.inj nofun
    | (refine withEqual_ne_eof ?_ ?_ cs <;> exact nofun)
    | skip
  · split
    · exact nofun
    · exact nofun
  · dsimp only
    split
    · exact nofun
    · exact nofun
  · split
    · exact nofun
    · split
      · exact nofun
      · split
        · exact nofun
        · exact nofun

variable {piece : Piece} {text : List Char} {start stop : Position} {item : Item}

/-- A token that a piece leaves is no end mark. -/
lemma item?_kind_ne_eof (noEnd : piece ≠ mark .eof) {token : Token}
    (left : piece.item? text start stop = some (.ok token)) : token.kind ≠ .eof := by
  cases piece with
  | gap => cases left
  | mark kind =>
    cases left
    exact mt (congrArg mark) noEnd
  | number =>
    cases left
    exact nofun
  | string =>
    cases left
    exact nofun
  | word =>
    cases left
    exact Kind.ofWord_ne_eof _
  | unterminated => cases left
  | unrecognized c => cases left

/-- An item covers the piece that leaves it. -/
lemma item?_span (left : piece.item? text start stop = some item) :
    item.span = ⟨start.offset, stop.offset - start.offset⟩ := by
  cases piece with
  | gap => cases left
  | mark kind => cases left; rfl
  | number => cases left; rfl
  | string => cases left; rfl
  | word => cases left; rfl
  | unterminated => cases left; rfl
  | unrecognized c => cases left; rfl

end Piece

/-- The last item is the end mark, and no other item is one. -/
lemma scanFrom_eq_append (p : Position) (cs : List Char) :
    ∃ items, scanFrom p cs = items ++ [.ok (.endMark (p.after cs).line (p.after cs).offset)] ∧
      ∀ token, .ok token ∈ items → token.kind ≠ .eof := by
  induction p, cs using scanFrom_induction with
  | nil p =>
    rw [scanFrom]
    exact ⟨[], rfl, fun _ mem => absurd mem List.not_mem_nil⟩
  | cons p c cs ih =>
    have place := Position.after_take_drop p c cs (Piece.munch c cs).2 []
    rw [List.append_nil, List.append_nil] at place
    obtain ⟨items, eq, noEnd⟩ := ih
    rw [scanFrom_cons, eq, place]
    refine ⟨_, (List.append_assoc _ _ _).symm, fun token mem => ?_⟩
    rcases List.mem_append.mp mem with first | later
    · exact Piece.item?_kind_ne_eof (Piece.munch_ne_eof c cs) (Option.mem_toList.mp first)
    · exact noEnd token later

/-- Items come one behind the other, and none in front of the place where scanning starts. -/
lemma scanFrom_ordered (p : Position) (cs : List Char) :
    (∀ item ∈ scanFrom p cs, p.offset ≤ item.span.start) ∧
      (scanFrom p cs).Pairwise fun item item' => item.span.stop ≤ item'.span.start := by
  induction p, cs using scanFrom_induction with
  | nil p =>
    rw [scanFrom]
    refine ⟨fun item mem => ?_, List.pairwise_singleton _ _⟩
    rw [List.mem_singleton.mp mem]
    exact Nat.le_refl _
  | cons p c cs ih =>
    have forward := Position.offset_after p (c :: cs.take (Piece.munch c cs).2)
    obtain ⟨behind, ordered⟩ := ih
    -- The first piece covers all up to the place where the rest is scanned.
    have covered : ∀ item ∈ ((Piece.munch c cs).1.item? (c :: cs.take (Piece.munch c cs).2) p
        (p.after (c :: cs.take (Piece.munch c cs).2))).toList,
        item.span.start = p.offset ∧
          item.span.stop = (p.after (c :: cs.take (Piece.munch c cs).2)).offset := by
      intro item mem
      rw [Piece.item?_span (Option.mem_toList.mp mem), Span.stop]
      dsimp only
      omega
    rw [scanFrom_cons]
    constructor
    · intro item mem
      rcases List.mem_append.mp mem with first | later
      · exact Nat.le_of_eq (covered item first).1.symm
      · have := behind item later
        omega
    · rw [List.pairwise_append]
      refine ⟨?_, ordered, fun item first item' later => ?_⟩
      · cases Piece.item? _ _ p _ with
        | none => exact .nil
        | some item => exact List.pairwise_singleton _ _
      · rw [(covered item first).2]
        exact behind item' later

namespace Item

/-- Without errors, items are tokens. -/
lemma eq_map_tokens {items : List Item} (clean : errors items = []) :
    items = (tokens items).map .ok := by
  induction items with
  | nil => rfl
  | cons item items ih =>
    cases item with
    | ok token =>
      have rest := ih clean
      exact congrArg (.ok token :: ·) rest
    | error e => cases clean

/-- Tokens are the tokens among them. -/
lemma tokens_map_ok (ts : List Token) : tokens (ts.map .ok) = ts := by
  induction ts with
  | nil => rfl
  | cons t ts ih => exact congrArg (t :: ·) ih

/-- There are no errors where there are tokens only. -/
lemma errors_map_ok (ts : List Token) : errors (ts.map .ok) = [] := by
  induction ts with
  | nil => rfl
  | cons t ts ih => exact ih

/-- Errors are reported in the order of the source. -/
lemma errors_ordered (source : String) :
    (errors (scan source)).Pairwise fun e e' => e.span.stop ≤ e'.span.start := by
  rw [errors, List.pairwise_filterMap]
  refine (scanFrom_ordered .start source.toList).2.imp ?_
  intro item item' behind e found e' found'
  cases item with
  | ok token => cases found
  | error e =>
    cases item' with
    | ok token => cases found'
    | error e' =>
      cases found
      cases found'
      exact behind

end Item

end Lox
