import Lox.Token.Scan
import Mathlib.Tactic.Common

/-!
# Scanning line by line

No piece other than a string or a blank goes on behind the end of a line, so a source may be cut
there: what is scanned in front of a line feed depends on nothing behind it, unless a string is open,
and what is scanned behind it depends on nothing in front but the position.
-/

namespace Lox

namespace Position

/-- The place that is some bytes and lines further. -/
def shift (bytes lines : Nat) (p : Position) : Position :=
  ⟨p.offset + bytes, p.line + lines⟩

/-- Bytes are counted one character after another. -/
lemma offset_after (p : Position) (text : List Char) :
    (p.after text).offset = p.offset + (String.ofList text).utf8ByteSize := by
  induction text generalizing p with
  | nil => rfl
  | cons c text ih =>
    change ((p.next c).after text).offset = _
    rw [ih, String.ofList_cons, String.utf8ByteSize_append, String.utf8ByteSize_singleton,
      ← Nat.add_assoc]
    rfl

/-- Behind a text, there are as many lines more as it has line feeds. -/
lemma line_after (p : Position) (text : List Char) :
    (p.after text).line = p.line + text.count '\n' := by
  induction text generalizing p with
  | nil => rfl
  | cons c text ih =>
    change ((p.next c).after text).line = _
    rw [ih, next, List.count_cons]
    dsimp only
    by_cases newline : c = '\n'
    · rw [if_pos newline, if_pos (beq_iff_eq.mpr newline)]
      omega
    · rw [if_neg newline, if_neg (mt beq_iff_eq.mp newline), Nat.add_zero]

/-- Going on from a shifted place. -/
lemma after_shift (bytes lines : Nat) (p : Position) (text : List Char) :
    (p.shift bytes lines).after text = (p.after text).shift bytes lines := by
  have offset := offset_after (p.shift bytes lines) text
  have line := line_after (p.shift bytes lines) text
  generalize (p.shift bytes lines).after text = q at offset line
  obtain ⟨bytes', lines'⟩ := q
  rw [shift, offset_after, line_after, mk.injEq]
  dsimp only [shift] at offset line
  omega

/-- Going on behind a text and then behind another one. -/
lemma after_append (p : Position) (text text' : List Char) :
    p.after (text ++ text') = (p.after text).after text' :=
  List.foldl_append

/-- Going on behind the first part of a text and then behind the others is going on behind all. -/
lemma after_take_drop (p : Position) (c : Char) (cs : List Char) (n : Nat) (rest : List Char) :
    (p.after (c :: cs.take n)).after (cs.drop n ++ rest) = p.after (c :: (cs ++ rest)) := by
  rw [← after_append, List.cons_append, ← List.append_assoc, List.take_append_drop]

end Position

/-- The token that is some bytes and lines further. -/
def Token.shift (bytes lines : Nat) (t : Token) : Token :=
  { t with line := t.line + lines, span := ⟨t.span.start + bytes, t.span.length⟩ }

/-- The error that is some bytes and lines further. -/
def LexicalError.shift (bytes lines : Nat) (e : LexicalError) : LexicalError :=
  { e with line := e.line + lines, span := ⟨e.span.start + bytes, e.span.length⟩ }

/-- The item that is some bytes and lines further. -/
def Item.shift (bytes lines : Nat) : Item → Item
  | .ok token => .ok (token.shift bytes lines)
  | .error e => .error (e.shift bytes lines)

namespace Piece

section

variable {p : Char → Bool} {c : Char}

/-- A run goes on with a character that has the property. -/
lemma run_cons_of_pos (goesOn : p c = true) (cs : List Char) : run p (c :: cs) = run p cs + 1 := by
  rw [run, List.takeWhile_cons_of_pos goesOn]
  rfl

/-- A run ends in front of a character without the property. -/
lemma run_cons_of_neg (ends : p c = false) (cs : List Char) : run p (c :: cs) = 0 := by
  rw [run, List.takeWhile_cons_of_neg (ne_true_of_eq_false ends)]
  rfl

/-- A run ends at a character without the property, whatever follows. -/
lemma run_append (ends : p c = false) (cs rest : List Char) :
    run p (cs ++ c :: rest) = run p cs := by
  induction cs with
  | nil => exact run_cons_of_neg ends rest
  | cons d cs ih =>
    rw [List.cons_append]
    cases goesOn : p d with
    | true => rw [run_cons_of_pos goesOn, run_cons_of_pos goesOn, ih]
    | false => rw [run_cons_of_neg goesOn, run_cons_of_neg goesOn]

/-- A run that ends inside a text is the same whatever follows the text. -/
lemma run_append_of_ends {cs : List Char} (ends : cs.drop (run p cs) ≠ []) (rest : List Char) :
    run p (cs ++ rest) = run p cs := by
  induction cs with
  | nil => exact (ends rfl).elim
  | cons d cs ih =>
    rw [List.cons_append]
    cases goesOn : p d with
    | true =>
      rw [run_cons_of_pos goesOn] at ends
      rw [run_cons_of_pos goesOn, run_cons_of_pos goesOn, ih ends]
    | false => rw [run_cons_of_neg goesOn, run_cons_of_neg goesOn]

end

/-- A run is part of the text. -/
lemma run_le (p : Char → Bool) (cs : List Char) : run p cs ≤ cs.length :=
  (List.takeWhile_sublist p).length_le

/-- A line feed makes no mark longer. -/
lemma withEqual_append (cs rest : List Char) (long short : Kind) :
    withEqual (cs ++ '\n' :: rest) long short = withEqual cs long short := by
  cases cs with
  | nil => rfl
  | cons d cs => rfl

/-- A mark that a following `=` makes longer takes no more characters than there are. -/
lemma withEqual_le (cs : List Char) (long short : Kind) :
    (withEqual cs long short).2 ≤ cs.length := by
  cases cs with
  | nil => exact Nat.le_refl 0
  | cons d cs =>
    rw [withEqual]
    split
    · exact Nat.succ_le_succ (Nat.zero_le _)
    · exact Nat.zero_le _

/-- A line feed begins no comment. -/
lemma head?_append (cs rest : List Char) :
    (cs ++ '\n' :: rest).head? = some '/' ↔ cs.head? = some '/' := by
  cases cs with
  | nil => exact iff_of_false nofun nofun
  | cons d cs => exact Iff.rfl

/-- A number ends at a line feed, whatever follows. -/
lemma numberTail_append (cs rest : List Char) :
    numberTail (cs ++ '\n' :: rest) = numberTail cs := by
  have digits : run Char.isDigit (cs ++ '\n' :: rest) = run Char.isDigit cs :=
    run_append rfl cs rest
  rw [numberTail, numberTail, digits, List.drop_append_of_le_length (run_le _ cs)]
  generalize run Char.isDigit cs = whole
  cases cs.drop whole with
  | nil => rfl
  | cons d others =>
    -- A point belongs to the number only with a digit behind it, and a line feed is none.
    by_cases point : d = '.'
    · subst point
      cases others with
      | nil => rfl
      | cons e others =>
        have fraction : run Char.isDigit (others ++ '\n' :: rest) = run Char.isDigit others :=
          run_append rfl others rest
        change (if e.isDigit then whole + 2 + run Char.isDigit (others ++ '\n' :: rest) else whole) =
          if e.isDigit then whole + 2 + run Char.isDigit others else whole
        rw [fraction]
    · rw [List.cons_append]
      split
      · rename_i eq
        exact (point (List.cons.inj eq).1).elim
      · split
        · rename_i eq
          exact (point (List.cons.inj eq).1).elim
        · rfl

/-- A number takes no more characters than there are. -/
lemma numberTail_le (cs : List Char) : numberTail cs ≤ cs.length := by
  have whole := run_le Char.isDigit cs
  rw [numberTail]
  split
  · rename_i d rest eq
    have left : cs.length - run Char.isDigit cs = rest.length + 2 := by
      rw [← List.length_drop, eq]
      rfl
    have fraction := run_le Char.isDigit rest
    split
    · omega
    · omega
  · exact whole

/-- A piece is part of the text. -/
lemma munch_le (c : Char) (cs : List Char) : (munch c cs).2 ≤ cs.length := by
  -- Marks come first; what is left are comments, strings, and numbers, words or neither.
  unfold munch
  split
  all_goals first | exact Nat.zero_le _ | exact withEqual_le _ _ _ | skip
  · split
    · exact run_le _ cs
    · exact Nat.zero_le _
  · dsimp only
    split
    · exact run_le _ cs
    · rename_i more
      rw [List.drop_eq_nil_iff, Nat.not_le] at more
      exact more
  · split
    · exact numberTail_le cs
    · split
      · exact run_le _ cs
      · split
        · exact Nat.zero_le _
        · exact Nat.zero_le _

/-- A piece that is no open string is the same whatever follows behind the line. -/
lemma munch_append {c : Char} {cs : List Char} (closed : (munch c cs).1 ≠ unterminated)
    (rest : List Char) : munch c (cs ++ '\n' :: rest) = munch c cs := by
  unfold munch at *
  split
  all_goals first | rfl | exact withEqual_append _ _ _ _ | skip
  · rw [run_append rfl]
    simp only [head?_append]
  -- A string goes on over line feeds, so that it has to be closed in front of this one.
  · change (if cs.drop (run (· ≠ '"') cs) = [] then (unterminated, run (· ≠ '"') cs)
      else (string, run (· ≠ '"') cs + 1)).1 ≠ unterminated at closed
    have ends : cs.drop (run (· ≠ '"') cs) ≠ [] := by
      intro empty
      rw [if_pos empty] at closed
      exact closed rfl
    have same := run_append_of_ends ends ('\n' :: rest)
    have ends' : (cs ++ '\n' :: rest).drop (run (· ≠ '"') cs) ≠ [] := by
      rw [List.drop_append_of_le_length (run_le _ cs)]
      exact List.append_ne_nil_of_left_ne_nil ends _
    dsimp only
    rw [same, if_neg ends, if_neg ends']
  · rw [numberTail_append, run_append rfl]

end Piece

/-- A first piece and what is scanned behind it. -/
lemma scanFrom_cons (p : Position) (c : Char) (cs : List Char) :
    let piece := Piece.munch c cs
    let text := c :: cs.take piece.2
    scanFrom p (c :: cs) =
      (piece.1.item? text p (p.after text)).toList ++ scanFrom (p.after text) (cs.drop piece.2) := by
  rw [scanFrom]
  dsimp only
  split
  · rename_i none
    rw [none]
    rfl
  · rename_i item some
    rw [some]
    rfl

/-- What holds at the end of a text, and of a text if it holds behind its first piece, holds of every
text. -/
@[elab_as_elim]
lemma scanFrom_induction {motive : Position → List Char → Prop} (nil : ∀ p, motive p [])
    (cons : ∀ p c cs, motive (p.after (c :: cs.take (Piece.munch c cs).2))
      (cs.drop (Piece.munch c cs).2) → motive p (c :: cs)) (p : Position) (cs : List Char) :
    motive p cs := by
  induction size : cs.length using Nat.strongRecOn generalizing p cs with
  | ind n ih =>
    cases cs with
    | nil => exact nil p
    | cons c cs =>
      have shorter : (cs.drop (Piece.munch c cs).2).length < n := by
        rw [← size, List.length_drop, List.length_cons]
        omega
      exact cons p c cs (ih _ shorter _ _ rfl)

/-- There is always an end mark. -/
lemma scanFrom_ne_nil (p : Position) (cs : List Char) : scanFrom p cs ≠ [] := by
  induction p, cs using scanFrom_induction with
  | nil p =>
    rw [scanFrom]
    exact List.cons_ne_nil _ _
  | cons p c cs ih =>
    rw [scanFrom_cons]
    exact List.append_ne_nil_of_right_ne_nil _ ih

/-- No item reports a string that is open at the end. -/
def Item.Terminated (items : List Item) : Prop :=
  ∀ e : LexicalError, .error e ∈ items → e.cause ≠ .unterminatedString

/-- Where there are tokens only, no string is open. -/
lemma Item.terminated_map_ok (ts : List Token) : Item.Terminated (ts.map .ok) := by
  intro e mem
  obtain ⟨_, _, eq⟩ := List.mem_map.mp mem
  cases eq

/-- A source is scanned up to the end of a line and then behind it. -/
lemma scanFrom_append {p : Position} {cs : List Char} (closed : Item.Terminated (scanFrom p cs))
    (rest : List Char) :
    scanFrom p (cs ++ '\n' :: rest) =
      (scanFrom p cs).dropLast ++ scanFrom (p.after (cs ++ ['\n'])) rest := by
  induction p, cs using scanFrom_induction with
  | nil p =>
    -- The line feed itself is a gap, in the place of the end mark.
    rw [List.nil_append, scanFrom_cons, scanFrom]
    rfl
  | cons p c cs ih =>
    have inside := Piece.munch_le c cs
    have split := scanFrom_cons p c cs
    dsimp only at split
    rw [split] at closed
    -- An open string would be reported here, before anything else.
    have isClosed : (Piece.munch c cs).1 ≠ .unterminated := by
      intro isOpen
      rw [isOpen] at closed
      exact closed _ List.mem_cons_self rfl
    have others : Item.Terminated
        (scanFrom (p.after (c :: cs.take (Piece.munch c cs).2)) (cs.drop (Piece.munch c cs).2)) :=
      fun e mem => closed e (List.mem_append_right _ mem)
    rw [List.cons_append, scanFrom_cons, Piece.munch_append isClosed, split,
      List.take_append_of_le_length inside, List.drop_append_of_le_length inside, ih others,
      List.dropLast_append_of_ne_nil (scanFrom_ne_nil _ _), List.append_assoc,
      Position.after_take_drop, List.cons_append]

/-- A piece leaves the same item further on. -/
lemma Piece.item?_shift (bytes lines : Nat) (piece : Piece) (text : List Char)
    (start stop : Position) :
    piece.item? text (start.shift bytes lines) (stop.shift bytes lines) =
      (piece.item? text start stop).map (Item.shift bytes lines) := by
  have same : stop.offset + bytes - (start.offset + bytes) = stop.offset - start.offset :=
    Nat.add_sub_add_right _ _ _
  cases piece <;>
    simp only [item?, Position.shift, same, Option.map_some, Option.map_none, Item.shift,
      Token.shift, LexicalError.shift]

/-- The same items are scanned further on. -/
lemma scanFrom_shift (bytes lines : Nat) (p : Position) (cs : List Char) :
    scanFrom (p.shift bytes lines) cs = (scanFrom p cs).map (Item.shift bytes lines) := by
  induction p, cs using scanFrom_induction with
  | nil p =>
    rw [scanFrom, scanFrom]
    rfl
  | cons p c cs ih =>
    rw [scanFrom_cons, scanFrom_cons, Position.after_shift, Piece.item?_shift, ih, List.map_append,
      Option.toList_map]

/-- Scanning goes line by line: behind a line feed, the items are those of the second source alone,
further on by the bytes and lines of the first. -/
lemma scan_append_newline {source : String} (closed : Item.Terminated (scan source))
    (source' : String) :
    scan (source ++ "\n" ++ source') =
      (scan source).dropLast ++ (scan source').map
        (Item.shift (source.utf8ByteSize + 1) (source.toList.count '\n' + 1)) := by
  have text : (source ++ "\n" ++ source').toList = source.toList ++ '\n' :: source'.toList := by
    simp only [String.toList_append, List.append_assoc]
    rfl
  have place : Position.start.after (source.toList ++ ['\n']) =
      Position.start.shift (source.utf8ByteSize + 1) (source.toList.count '\n' + 1) := by
    have offset := Position.offset_after .start (source.toList ++ ['\n'])
    have line := Position.line_after .start (source.toList ++ ['\n'])
    generalize Position.start.after (source.toList ++ ['\n']) = q at offset line
    obtain ⟨offset', line'⟩ := q
    rw [String.ofList_append, String.ofList_toList, String.utf8ByteSize_append] at offset
    rw [List.count_append] at line
    rw [Position.shift, Position.mk.injEq]
    exact ⟨offset, line⟩
  rw [scan, text, scanFrom_append closed, place, scanFrom_shift]
  rfl

end Lox
