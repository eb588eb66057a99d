import Lox.Proofs.Scan.Munch

/-!
# Scanning with a cursor

A scanner that holds the source as bytes and a cursor in it: it cuts lexemes out by their offsets and
counts lines in 32 bits. A slice that leaves the source, ends inside a character or ends before it
starts, a difference below zero and a line number that does not fit stop it, as `none`, and so does
a loop with more rounds than the source has bytes, and one. `Cursor.scan?_eq` says that nothing of
this happens and that it finds the items of `scan`: between two steps, the cursor is behind a text
that the source begins with.
-/

namespace Lox

/-- The bytes from `start` to `stop`, if they are there and both are between two characters. -/
def slice? (source : String) (start stop : Nat) : Option String :=
  if start ≤ stop ∧ String.Pos.Raw.IsValid source ⟨start⟩ ∧ String.Pos.Raw.IsValid source ⟨stop⟩ then
    some (String.Pos.Raw.extract source ⟨start⟩ ⟨stop⟩)
  else none

/-- A place in a source that is being scanned. -/
structure Cursor where
  source : String
  offset : Nat
  line : UInt32

namespace Cursor

/-- The line number behind a character. -/
def nextLine? (line : UInt32) (c : Char) : Option UInt32 :=
  if c = '\n' then if line.toNat + 1 < UInt32.size then some (line + 1) else none
  else some line

/-- The characters behind the cursor. -/
def rest? (cursor : Cursor) : Option (List Char) := do
  let rest ← slice? cursor.source cursor.offset cursor.source.utf8ByteSize
  return rest.toList

/-- The next character. -/
def peek? (cursor : Cursor) : Option (Option Char) := do
  return (← cursor.rest?).head?

/-- The character behind the next one. -/
def peekNext? (cursor : Cursor) : Option (Option Char) := do
  return (← cursor.rest?).tail.head?

/-- Takes the next character. -/
def advance? (cursor : Cursor) : Option (Option Char × Cursor) := do
  match ← cursor.peek? with
  | none => return (none, cursor)
  | some c =>
    let line ← nextLine? cursor.line c
    return (some c, ⟨cursor.source, cursor.offset + c.utf8Size, line⟩)

/-- Takes the next character if it is the expected one, and says whether it is. -/
def advanceIf? (expected : Char) (cursor : Cursor) : Option (Bool × Cursor) := do
  if (← cursor.peek?) = some expected then
    let (_, cursor) ← cursor.advance?
    return (true, cursor)
  else return (false, cursor)

/-- Rounds enough for a loop that comes further in the source in each of them but the last. -/
def rounds (cursor : Cursor) : Nat :=
  cursor.source.utf8ByteSize + 1

/-- Takes characters as long as they have a property, in at most so many rounds. -/
def advanceWithin? (p : Char → Bool) : Nat → Cursor → Option Cursor
  | 0, _ => none
  | rounds + 1, cursor => do
    if (← cursor.peek?).any p then
      let (_, cursor) ← cursor.advance?
      advanceWithin? p rounds cursor
    else return cursor

/-- Takes characters as long as they have a property. -/
def advanceWhile? (p : Char → Bool) (cursor : Cursor) : Option Cursor :=
  advanceWithin? p cursor.rounds cursor

/-- The text from an offset up to the cursor. -/
def sliceFrom? (start : Nat) (cursor : Cursor) : Option String :=
  slice? cursor.source start cursor.offset

/-- The token from an offset up to the cursor. -/
def token? (start : Nat) (kind : Kind) (literal : Option Literal) (cursor : Cursor) :
    Option (Option Item × Cursor) := do
  let lexeme ← cursor.sliceFrom? start
  let span : Span := ⟨start, lexeme.utf8ByteSize⟩
  return (some (.ok ⟨kind, lexeme, literal, cursor.line.toNat, span⟩), cursor)

/-- A mark that a following `=` makes a longer one. -/
def withEqual? (start : Nat) (long short : Kind) (cursor : Cursor) :
    Option (Option Item × Cursor) := do
  let (equal, cursor) ← cursor.advanceIf? '='
  cursor.token? start (if equal then long else short) none

/-- A slash, or a comment up to the end of the line. -/
def slash? (start : Nat) (cursor : Cursor) : Option (Option Item × Cursor) := do
  match ← cursor.advanceIf? '/' with
  | (true, cursor) => return (none, ← cursor.advanceWhile? (· ≠ '\n'))
  | (false, cursor) => cursor.token? start .slash none

/-- A string behind its opening quote. Its value is cut out of the lexeme. -/
def string? (start : Nat) (cursor : Cursor) : Option (Option Item × Cursor) := do
  let cursor ← cursor.advanceWhile? (· ≠ '"')
  match ← cursor.advanceIf? '"' with
  | (true, cursor) =>
    let lexeme ← cursor.sliceFrom? start
    if 1 ≤ lexeme.utf8ByteSize then
      let value ← slice? lexeme 1 (lexeme.utf8ByteSize - 1)
      cursor.token? start .string (some (.string value))
    else none
  | (false, cursor) =>
    if start ≤ cursor.offset then
      let span : Span := ⟨start, cursor.offset - start⟩
      return (some (.error ⟨.unterminatedString, cursor.line.toNat, span⟩), cursor)
    else none

/-- Whether a point with a digit behind it follows. -/
def fraction? (cursor : Cursor) : Option Bool := do
  if (← cursor.peek?) = some '.' then return (← cursor.peekNext?).any Char.isDigit
  else return false

/-- Takes the fraction of a number if it has one. -/
def advanceFraction? (cursor : Cursor) : Option Cursor := do
  match ← cursor.fraction? with
  | true =>
    let (_, cursor) ← cursor.advance?
    cursor.advanceWhile? Char.isDigit
  | false => return cursor

/-- A number behind its first digit. -/
def number? (start : Nat) (cursor : Cursor) : Option (Option Item × Cursor) := do
  let cursor ← cursor.advanceWhile? Char.isDigit
  let cursor ← cursor.advanceFraction?
  let digits ← cursor.sliceFrom? start
  cursor.token? start .number (some (.number (Decimal.literal digits.toList)))

/-- A word behind its first letter. -/
def word? (start : Nat) (cursor : Cursor) : Option (Option Item × Cursor) := do
  let cursor ← cursor.advanceWhile? Piece.continuesWord
  let word ← cursor.sliceFrom? start
  cursor.token? start (Kind.ofWord word) none

/-- The piece that starts with `c`, behind which the cursor is. A blank or a comment leaves no
item. -/
def piece? (start : Nat) (c : Char) (cursor : Cursor) : Option (Option Item × Cursor) :=
  match c with
  | '(' => cursor.token? start .leftParen none
  | ')' => cursor.token? start .rightParen none
  | '{' => cursor.token? start .leftBrace none
  | '}' => cursor.token? start .rightBrace none
  | ',' => cursor.token? start .comma none
  | '.' => cursor.token? start .dot none
  | '-' => cursor.token? start .minus none
  | '+' => cursor.token? start .plus none
  | ';' => cursor.token? start .semicolon none
  | '*' => cursor.token? start .star none
  | '!' => cursor.withEqual? start .bangEqual .bang
  | '=' => cursor.withEqual? start .equalEqual .equal
  | '<' => cursor.withEqual? start .lessEqual .less
  | '>' => cursor.withEqual? start .greaterEqual .greater
  | '/' => cursor.slash? start
  | '"' => cursor.string? start
  | c =>
    if c.isDigit then cursor.number? start
    else if Piece.startsWord c then cursor.word? start
    else if Piece.isGap c then some (none, cursor)
    else some (some (.error ⟨.unrecognized c, cursor.line.toNat, ⟨start, c.utf8Size⟩⟩), cursor)

/-- The items behind the cursor, found in at most so many rounds. -/
def itemsWithin? : Nat → Cursor → Option (List Item)
  | 0, _ => none
  | rounds + 1, cursor => do
    match ← cursor.advance? with
    | (none, cursor) => return [.ok (.endMark cursor.line.toNat cursor.source.utf8ByteSize)]
    | (some c, next) =>
      let (item, next) ← next.piece? cursor.offset c
      let items ← itemsWithin? rounds next
      return item.toList ++ items

/-- The items behind the cursor. -/
def items? (cursor : Cursor) : Option (List Item) :=
  itemsWithin? cursor.rounds cursor

/-- The items of a source. -/
def scan? (source : String) : Option (List Item) :=
  items? ⟨source, 0, 1⟩

end Cursor

section

open Lexicon

/-- Each character has a byte. -/
lemma Lexicon.length_le_bytes (cs : List Char) : cs.length ≤ bytes cs := by
  induction cs with
  | nil => exact Nat.zero_le _
  | cons c cs ih =>
    have split : bytes (c :: cs) = c.utf8Size + bytes cs := by
      rw [← List.singleton_append, bytes_append, bytes_singleton]
    have filled : 0 < c.utf8Size := c.utf8Size_pos
    rw [split, List.length_cons]
    omega

/-- A slice between two texts is the text between them. -/
lemma slice?_ofList (before text rest : List Char) :
    slice? (String.ofList (before ++ text ++ rest)) (bytes before) (bytes (before ++ text)) =
      some (String.ofList text) := by
  have forwards : bytes before ≤ bytes (before ++ text) := by
    rw [bytes_append]
    exact Nat.le_add_right _ _
  have first : String.Pos.Raw.IsValid (String.ofList (before ++ text ++ rest)) ⟨bytes before⟩ := by
    rw [String.Pos.Raw.isValid_iff_exists_append]
    refine ⟨String.ofList before, String.ofList (text ++ rest), ?_, rfl⟩
    rw [← String.ofList_append, List.append_assoc]
  have last : String.Pos.Raw.IsValid (String.ofList (before ++ text ++ rest))
      ⟨bytes (before ++ text)⟩ := by
    rw [String.Pos.Raw.isValid_iff_exists_append]
    refine ⟨String.ofList (before ++ text), String.ofList rest, ?_, rfl⟩
    rw [← String.ofList_append]
  rw [slice?, if_pos ⟨forwards, first, last⟩]
  rw [bytes_append, bytes, bytes, String.utf8ByteSize_ofList, String.utf8ByteSize_ofList,
    String.extract_of_valid]

end

namespace Cursor

open Lexicon

/-- The cursor behind a text, before another one. -/
def behind (before rest : List Char) : Cursor :=
  ⟨String.ofList (before ++ rest), bytes before, UInt32.ofNat (Lexicon.line before)⟩

/-- The line numbers of a text fit. -/
def Fits (cs : List Char) : Prop :=
  Lexicon.line cs < UInt32.size

variable {before text rest : List Char} {c d : Char} {p : Char → Bool} {kind : Kind}
  {literal : Option Literal}

/-- The line numbers of the first part of a text fit if those of the text do. -/
lemma Fits.left (fits : Fits (before ++ rest)) : Fits before := by
  rw [Fits, Lexicon.line, List.count_append] at fits
  rw [Fits, Lexicon.line]
  omega

/-- A character may be counted with what stands before it. -/
lemma Fits.cons (fits : Fits (before ++ c :: rest)) : Fits (before ++ [c] ++ rest) := by
  rwa [← List.append_cons]

/-- The line of the cursor is that of the text before it. -/
lemma Fits.toNat (fits : Fits (before ++ rest)) :
    (behind before rest).line.toNat = Lexicon.line before :=
  UInt32.toNat_ofNat_of_lt' fits.left

/-- What is behind the cursor can be cut out of the source. -/
lemma rest?_behind : (behind before rest).rest? = some rest := by
  have cut := slice?_ofList before rest []
  rw [List.append_nil] at cut
  have sliced : slice? (behind before rest).source (behind before rest).offset
      (behind before rest).source.utf8ByteSize = some (String.ofList rest) := cut
  rw [rest?, sliced]
  exact congrArg some String.toList_ofList

/-- The next character is the first one behind the cursor. -/
lemma peek?_behind : (behind before rest).peek? = some rest.head? := by
  rw [peek?, rest?_behind]
  rfl

/-- The character after the next one is the second one behind the cursor. -/
lemma peekNext?_behind : (behind before rest).peekNext? = some rest.tail.head? := by
  rw [peekNext?, rest?_behind]
  rfl

/-- Nothing is taken at the end. -/
lemma advance?_nil : (behind before []).advance? = some (none, behind before []) := by
  rw [advance?, peek?_behind]
  rfl

/-- A line feed at the end of a text begins one line more. -/
lemma line_concat (before : List Char) (c : Char) :
    Lexicon.line (before ++ [c]) = Lexicon.line before + if c = '\n' then 1 else 0 := by
  rw [Lexicon.line, Lexicon.line, List.count_append, List.count_singleton]
  simp only [beq_iff_eq]
  omega

/-- If it fits, the line number behind a character is that behind the longer text. -/
lemma nextLine?_behind (fits : Fits (before ++ c :: rest)) :
    nextLine? (behind before (c :: rest)).line c =
      some (UInt32.ofNat (Lexicon.line (before ++ [c]))) := by
  have longer : Lexicon.line (before ++ [c]) < UInt32.size := fits.cons.left
  rw [line_concat] at longer ⊢
  rw [nextLine?]
  split
  · next newline =>
    rw [if_pos newline] at longer
    rw [fits.toNat, if_pos longer, UInt32.ofNat_add]
    rfl
  · rfl

/-- The cursor takes the next character and is behind the longer text. -/
lemma advance?_cons (fits : Fits (before ++ c :: rest)) :
    (behind before (c :: rest)).advance? = some (some c, behind (before ++ [c]) rest) := by
  have stop : (behind before (c :: rest)).offset + c.utf8Size = bytes (before ++ [c]) := by
    rw [bytes_append, bytes_singleton]
    rfl
  rw [advance?, peek?_behind]
  dsimp only [List.head?_cons, Option.bind_eq_bind, Option.bind_some]
  rw [nextLine?_behind fits, Option.bind_some, stop, behind, behind, List.append_cons]
  rfl

/-- The expected character is taken. -/
lemma advanceIf?_cons (fits : Fits (before ++ c :: rest)) :
    (behind before (c :: rest)).advanceIf? c = some (true, behind (before ++ [c]) rest) := by
  rw [advanceIf?, peek?_behind]
  change (if some c = some c then _ else _) = _
  rw [if_pos rfl, advance?_cons fits]
  rfl

/-- A character that is not the expected one is left. -/
lemma advanceIf?_of_ne {expected : Char} (other : rest.head? ≠ some expected) :
    (behind before rest).advanceIf? expected = some (false, behind before rest) := by
  rw [advanceIf?, peek?_behind]
  exact if_neg other

/-- There are rounds for every character behind the cursor, and one more. -/
lemma length_lt_rounds : rest.length < (behind before rest).rounds := by
  have counted : rest.length ≤ bytes (before ++ rest) := by
    rw [bytes_append]
    exact Nat.le_add_left_of_le (length_le_bytes rest)
  exact Nat.lt_succ_of_le counted

/-- The cursor takes a run of characters, one in each round. -/
lemma advanceWithin?_behind (fits : Fits (before ++ rest)) (p : Char → Bool) {rounds : Nat}
    (enough : rest.length < rounds) :
    advanceWithin? p rounds (behind before rest) =
      some (behind (before ++ rest.take (Piece.run p rest)) (rest.drop (Piece.run p rest))) := by
  induction rounds generalizing before rest with
  | zero => exact absurd enough (Nat.not_lt_zero _)
  | succ rounds ih =>
    rw [advanceWithin?, peek?_behind]
    cases rest with
    | nil =>
      rw [List.take_nil, List.append_nil]
      rfl
    | cons c rest =>
      change (if p c then _ else _) = _
      cases goesOn : p c with
      | true =>
        rw [if_pos rfl, advance?_cons fits, Piece.run_cons_of_pos goesOn, List.take_succ_cons,
          List.drop_succ_cons, List.append_cons before c (rest.take (Piece.run p rest))]
        exact ih fits.cons (Nat.lt_of_succ_lt_succ enough)
      | false =>
        rw [if_neg Bool.false_ne_true, Piece.run_cons_of_neg goesOn, List.take_zero,
          List.append_nil]
        rfl

/-- The cursor takes a run of characters. -/
lemma advanceWhile?_behind (fits : Fits (before ++ rest)) (p : Char → Bool) :
    (behind before rest).advanceWhile? p =
      some (behind (before ++ rest.take (Piece.run p rest)) (rest.drop (Piece.run p rest))) :=
  advanceWithin?_behind fits p length_lt_rounds

/-- Behind its first character, the cursor takes the rest of a piece. -/
lemma advanceWhile?_run {inside later : List Char} (fits : Fits (before ++ c :: (inside ++ later)))
    (run : Piece.run p (inside ++ later) = inside.length) :
    (behind (before ++ [c]) (inside ++ later)).advanceWhile? p =
      some (behind (before ++ c :: inside) later) := by
  rw [advanceWhile?_behind fits.cons, run, List.take_left, List.drop_left, List.append_assoc]
  rfl

/-- A slice up to the cursor is the text in front of it. -/
lemma sliceFrom?_behind :
    (behind (before ++ text) rest).sliceFrom? (bytes before) = some (String.ofList text) :=
  slice?_ofList before text rest

/-- The token in front of the cursor. -/
lemma token?_behind (fits : Fits (before ++ text ++ rest)) (kind : Kind)
    (literal : Option Literal) :
    (behind (before ++ text) rest).token? (bytes before) kind literal =
      some (some (.ok (Lexicon.token before text kind literal)),
        behind (before ++ text) rest) := by
  rw [token?, sliceFrom?_behind, fits.toNat]
  rfl

/-- What is taken is the piece of `munch`, with the item that it leaves. -/
def Takes (before : List Char) (c : Char) (cs : List Char)
    (taken : Option (Option Item × Cursor)) : Prop :=
  ∃ inside later piece, cs = inside ++ later ∧ Piece.munch c cs = (piece, inside.length) ∧
    taken = some (piece.item? (c :: inside) (Position.start.after before)
      (Position.start.after (before ++ c :: inside)), behind (before ++ c :: inside) later)

section

variable {inside later cs : List Char} {piece : Piece}

/-- What is taken behind a character may be counted with what stands before it. -/
lemma Fits.take (fits : Fits (before ++ c :: (inside ++ later))) :
    Fits (before ++ c :: inside ++ later) := by
  rwa [List.append_assoc, List.cons_append]

/-- A piece that is a token. -/
lemma Takes.token (fits : Fits (before ++ c :: (inside ++ later)))
    (munched : Piece.munch c (inside ++ later) = (piece, inside.length))
    (left : ∀ start stop : Position, piece.item? (c :: inside) start stop =
      some (.ok ⟨kind, String.ofList (c :: inside), literal, stop.line,
        ⟨start.offset, stop.offset - start.offset⟩⟩)) :
    Takes before c (inside ++ later)
      ((behind (before ++ c :: inside) later).token? (bytes before) kind literal) := by
  refine ⟨inside, later, piece, rfl, munched, ?_⟩
  rw [token?_behind fits.take, left, start_after, start_after]
  dsimp only
  rw [bytes_append, Nat.add_sub_cancel_left]
  rfl

end

section

variable {cs : List Char} (fits : Fits (before ++ c :: cs))

include fits

/-- A mark of one character. -/
lemma takes_mark (munched : Piece.munch c cs = (.mark kind, 0)) :
    Takes before c cs ((behind (before ++ [c]) cs).token? (bytes before) kind none) := by
  have alone : Takes before c ([] ++ cs) _ := .token fits munched fun _ _ => rfl
  exact alone

/-- A mark that a following `=` makes a longer one. -/
lemma takes_withEqual {long short : Kind}
    (munched : Piece.munch c cs = Piece.withEqual cs long short) :
    Takes before c cs ((behind (before ++ [c]) cs).withEqual? (bytes before) long short) := by
  rw [withEqual?]
  by_cases equal : cs.head? = some '='
  · rw [Piece.withEqual, if_pos equal] at munched
    obtain ⟨later, rfl⟩ := List.head?_eq_some_iff.mp equal
    have longer : Takes before c (['='] ++ later) _ := .token fits munched fun _ _ => rfl
    rw [advanceIf?_cons fits.cons, List.append_assoc]
    exact longer
  · rw [Piece.withEqual, if_neg equal] at munched
    rw [advanceIf?_of_ne equal]
    exact takes_mark fits munched

end

/-- A slash, or a comment up to the end of the line. -/
lemma takes_slash {cs : List Char} (fits : Fits (before ++ '/' :: cs)) :
    Takes before '/' cs ((behind (before ++ ['/']) cs).slash? (bytes before)) := by
  rw [slash?]
  by_cases slash : cs.head? = some '/'
  · obtain ⟨more, rfl⟩ := List.head?_eq_some_iff.mp slash
    obtain ⟨inside, later, rfl, free, ends⟩ := exists_up_to '\n' more
    have run : Piece.run (· ≠ '\n') (inside ++ later) = inside.length := Piece.run_ne free ends
    have length : Piece.run (· ≠ '\n') ('/' :: (inside ++ later)) = inside.length + 1 := by
      rw [Piece.run_cons_of_pos rfl, run]
    have munched : Piece.munch '/' ('/' :: (inside ++ later)) = (.gap, inside.length + 1) :=
      congrArg (Prod.mk Piece.gap) length
    have skipped : (behind (before ++ ['/'] ++ ['/']) (inside ++ later)).advanceWhile? (· ≠ '\n') =
        some (behind (before ++ '/' :: '/' :: inside) later) := by
      rw [advanceWhile?_run fits.cons run, List.append_assoc]
      rfl
    rw [advanceIf?_cons fits.cons]
    refine ⟨'/' :: inside, later, .gap, rfl, munched, ?_⟩
    change Option.bind (advanceWhile? _ (behind (before ++ ['/'] ++ ['/']) (inside ++ later))) _ = _
    rw [skipped]
    rfl
  · have munched : Piece.munch '/' cs = (.mark .slash, 0) := if_neg slash
    rw [advanceIf?_of_ne slash]
    exact takes_mark fits munched

/-- The quotes of a lexeme are cut off. -/
lemma slice?_quoted (inside : List Char) :
    slice? (String.ofList ('"' :: (inside ++ ['"']))) 1
      ((String.ofList ('"' :: (inside ++ ['"']))).utf8ByteSize - 1) =
        some (String.ofList inside) := by
  have cut := slice?_ofList ['"'] inside ['"']
  have size : (String.ofList ('"' :: (inside ++ ['"']))).utf8ByteSize =
      bytes (['"'] ++ inside) + 1 := by
    change bytes ((['"'] ++ inside) ++ ['"']) = _
    rw [bytes_append]
    rfl
  rw [size, Nat.add_sub_cancel]
  exact cut

section

variable {inside later : List Char}

/-- An opening quote that no other follows. -/
lemma takes_unterminated (fits : Fits (before ++ '"' :: inside))
    (run : Piece.run (· ≠ '"') inside = inside.length) :
    Takes before '"' inside ((behind (before ++ ['"']) inside).string? (bytes before)) := by
  have run' : Piece.run (· ≠ '"') (inside ++ []) = inside.length := by rw [List.append_nil, run]
  rw [← List.append_nil inside] at fits
  have walked := advanceWhile?_run fits run'
  rw [List.append_nil] at fits walked
  have munched : Piece.munch '"' inside = (.unterminated, inside.length) := by
    rw [Piece.munch, run, List.drop_length, if_pos rfl]
  have forwards : bytes before ≤ bytes (before ++ '"' :: inside) := by
    rw [bytes_append]
    exact Nat.le_add_right _ _
  refine ⟨inside, [], .unterminated, (List.append_nil inside).symm, munched, ?_⟩
  rw [string?, walked, Option.bind_eq_bind, Option.bind_some, advanceIf?_of_ne (by simp)]
  change (if bytes before ≤ bytes (before ++ '"' :: inside) then _ else _) = _
  rw [← List.append_nil (before ++ _)] at fits
  rw [if_pos forwards, fits.toNat, start_after, start_after]
  rfl

/-- A string between two quotes. -/
lemma takes_string (fits : Fits (before ++ '"' :: (inside ++ '"' :: later)))
    (run : Piece.run (· ≠ '"') (inside ++ '"' :: later) = inside.length) :
    Takes before '"' (inside ++ '"' :: later)
      ((behind (before ++ ['"']) (inside ++ '"' :: later)).string? (bytes before)) := by
  have munched : Piece.munch '"' (inside ++ '"' :: later) =
      (.string, (inside ++ ['"']).length) := by
    rw [Piece.munch, run, List.drop_left, if_neg (List.cons_ne_nil _ _), List.length_append]
    rfl
  have place : before ++ '"' :: inside ++ ['"'] = before ++ '"' :: (inside ++ ['"']) :=
    List.append_assoc _ _ _
  have positive : 1 ≤ (String.ofList ('"' :: (inside ++ ['"']))).utf8ByteSize := by
    rw [String.ofList_cons, String.utf8ByteSize_append]
    exact Nat.le_add_right 1 _
  rw [string?, advanceWhile?_run fits run, Option.bind_eq_bind, Option.bind_some,
    advanceIf?_cons fits.take, place]
  rw [List.append_cons inside '"' later] at fits munched ⊢
  change Takes _ _ _ (Option.bind (sliceFrom? (bytes before) _) _)
  rw [sliceFrom?_behind, Option.bind_some]
  change Takes _ _ _ (if _ then Option.bind (slice? _ 1 _) _ else none)
  rw [if_pos positive, slice?_quoted]
  refine .token fits munched fun start stop => ?_
  rw [Piece.item?, List.tail_cons, List.dropLast_concat]

/-- A string is taken up to the next quote, or up to the end of the source if there is none. -/
lemma takes_quote {cs : List Char} (fits : Fits (before ++ '"' :: cs)) :
    Takes before '"' cs ((behind (before ++ ['"']) cs).string? (bytes before)) := by
  obtain ⟨inside, later, rfl, free, ends⟩ := exists_up_to '"' cs
  have run : Piece.run (· ≠ '"') (inside ++ later) = inside.length := Piece.run_ne free ends
  cases later with
  | nil =>
    rw [List.append_nil] at fits run ⊢
    exact takes_unterminated fits run
  | cons d later =>
    obtain rfl : d = '"' := ends d rfl
    exact takes_string fits run

end

/-- A text goes on behind its first run. -/
lemma exists_run (p : Char → Bool) (cs : List Char) :
    ∃ inside later, cs = inside ++ later ∧ Piece.run p cs = inside.length :=
  ⟨cs.take (Piece.run p cs), cs.drop (Piece.run p cs), (List.take_append_drop _ cs).symm,
    (List.length_take_of_le (Piece.run_le p cs)).symm⟩

/-- The cursor takes a point with all digits behind it if there are any. -/
lemma advanceFraction?_behind {further later : List Char} (digit : d.isDigit = true)
    (run : Piece.run Char.isDigit (further ++ later) = further.length)
    (fits : Fits (before ++ '.' :: d :: (further ++ later))) :
    (behind before ('.' :: d :: (further ++ later))).advanceFraction? =
      some (behind (before ++ '.' :: d :: further) later) := by
  have found : (behind before ('.' :: d :: (further ++ later))).fraction? = some true := by
    rw [fraction?, peek?_behind]
    change Option.bind (peekNext? _) _ = _
    rw [peekNext?_behind]
    exact congrArg some digit
  have digits : Piece.run Char.isDigit (d :: further ++ later) = (d :: further).length := by
    rw [List.cons_append, Piece.run_cons_of_pos digit, run, List.length_cons]
  have walked : (behind (before ++ ['.']) (d :: further ++ later)).advanceWhile? Char.isDigit =
      some (behind (before ++ '.' :: d :: further) later) := advanceWhile?_run fits digits
  rw [advanceFraction?, found]
  change Option.bind (advance? _) _ = _
  rw [advance?_cons fits]
  exact walked

/-- A number ends at a point behind which no digit follows. -/
lemma advanceFraction?_of_not (other : ∀ d later, rest = '.' :: d :: later → d.isDigit = false) :
    (behind before rest).advanceFraction? = some (behind before rest) := by
  have none : (behind before rest).fraction? = some false := by
    rw [fraction?, peek?_behind]
    change (if rest.head? = some '.' then _ else _) = _
    split
    · next point =>
      obtain ⟨others, rfl⟩ := List.head?_eq_some_iff.mp point
      rw [peekNext?_behind]
      cases others with
      | nil => rfl
      | cons d later => exact congrArg some (other d later rfl)
    · rfl
  rw [advanceFraction?, none]
  rfl

section

variable {whole further later : List Char}

/-- A number with a fraction. -/
lemma takes_fraction (digit : c.isDigit = true)
    (run : Piece.run Char.isDigit (whole ++ '.' :: d :: (further ++ later)) = whole.length)
    (digit' : d.isDigit = true)
    (run' : Piece.run Char.isDigit (further ++ later) = further.length)
    (fits : Fits (before ++ c :: (whole ++ '.' :: d :: (further ++ later)))) :
    Takes before c (whole ++ '.' :: d :: (further ++ later))
      ((behind (before ++ [c]) (whole ++ '.' :: d :: (further ++ later))).number?
        (bytes before)) := by
  have munched : Piece.munch c (whole ++ '.' :: d :: (further ++ later)) =
      (.number, (whole ++ '.' :: d :: further).length) := by
    rw [Piece.munch_digit digit, Piece.numberTail, run, List.drop_left, List.length_append]
    change (Piece.number, if d.isDigit then
      whole.length + 2 + Piece.run Char.isDigit (further ++ later) else whole.length) = _
    rw [if_pos digit', run', List.length_cons, List.length_cons]
    exact congrArg (Prod.mk Piece.number) (by omega)
  have same : whole ++ '.' :: d :: (further ++ later) = whole ++ '.' :: d :: further ++ later := by
    rw [List.append_assoc]
    rfl
  rw [number?, advanceWhile?_run fits run, Option.bind_eq_bind, Option.bind_some,
    advanceFraction?_behind digit' run' fits.take, Option.bind_some, List.append_assoc]
  change Takes _ _ _ (Option.bind (sliceFrom? _ (behind (before ++ c :: (whole ++ _)) _)) _)
  rw [sliceFrom?_behind, Option.bind_some, String.toList_ofList]
  rw [same] at fits munched ⊢
  exact .token fits munched fun _ _ => rfl

/-- A number without a fraction. -/
lemma takes_whole (digit : c.isDigit = true)
    (run : Piece.run Char.isDigit (whole ++ rest) = whole.length)
    (other : ∀ d later, rest = '.' :: d :: later → d.isDigit = false)
    (fits : Fits (before ++ c :: (whole ++ rest))) :
    Takes before c (whole ++ rest)
      ((behind (before ++ [c]) (whole ++ rest)).number? (bytes before)) := by
  have tail : Piece.numberTail (whole ++ rest) = whole.length := by
    rw [Piece.numberTail, run, List.drop_left]
    split
    · next d later =>
      rw [other d later rfl]
      rfl
    · rfl
  have munched : Piece.munch c (whole ++ rest) = (.number, whole.length) := by
    rw [Piece.munch_digit digit, tail]
  rw [number?, advanceWhile?_run fits run, Option.bind_eq_bind, Option.bind_some,
    advanceFraction?_of_not other, Option.bind_some, sliceFrom?_behind, Option.bind_eq_bind,
    Option.bind_some, String.toList_ofList]
  exact .token fits munched fun _ _ => rfl

end

/-- A number, with its fraction if it has one. -/
lemma takes_number {cs : List Char} (digit : c.isDigit = true) (fits : Fits (before ++ c :: cs)) :
    Takes before c cs ((behind (before ++ [c]) cs).number? (bytes before)) := by
  obtain ⟨whole, rest, rfl, run⟩ := exists_run Char.isDigit cs
  by_cases fraction : ∃ d later, rest = '.' :: d :: later ∧ d.isDigit = true
  · obtain ⟨d, others, rfl, digit'⟩ := fraction
    obtain ⟨further, later, rfl, run'⟩ := exists_run Char.isDigit others
    exact takes_fraction digit run digit' run' fits
  · have other : ∀ d later, rest = '.' :: d :: later → d.isDigit = false := by
      intro d later eq
      exact Bool.eq_false_iff.mpr fun digit' => fraction ⟨d, later, eq, digit'⟩
    exact takes_whole digit run other fits

/-- A keyword or identifier. -/
lemma takes_word {cs : List Char} (starts : Piece.startsWord c = true)
    (fits : Fits (before ++ c :: cs)) :
    Takes before c cs ((behind (before ++ [c]) cs).word? (bytes before)) := by
  obtain ⟨inside, later, rfl, run⟩ := exists_run Piece.continuesWord cs
  have munched : Piece.munch c (inside ++ later) = (.word, inside.length) := by
    rw [Piece.munch_letter starts, run]
  rw [word?, advanceWhile?_run fits run, Option.bind_eq_bind, Option.bind_some, sliceFrom?_behind]
  exact .token fits munched fun _ _ => rfl

/-- A blank, or a character that starts nothing. -/
lemma takes_other {cs : List Char} {piece : Piece} {item : Option Item}
    (munched : Piece.munch c cs = (piece, 0))
    (left : piece.item? [c] (Position.start.after before) (Position.start.after (before ++ [c])) =
      item) :
    Takes before c cs (some (item, behind (before ++ [c]) cs)) :=
  ⟨[], cs, piece, rfl, munched, by rw [left]⟩

/-- Whatever character comes next, the cursor takes the piece of `munch`. -/
lemma takes_piece {cs : List Char} (fits : Fits (before ++ c :: cs)) :
    Takes before c cs ((behind (before ++ [c]) cs).piece? (bytes before) c) := by
  unfold piece?
  split
  case h_11 => exact takes_withEqual fits rfl
  case h_12 => exact takes_withEqual fits rfl
  case h_13 => exact takes_withEqual fits rfl
  case h_14 => exact takes_withEqual fits rfl
  case h_15 => exact takes_slash fits
  case h_16 => exact takes_quote fits
  case h_17 =>
    split
    · next digit => exact takes_number digit fits
    · next noDigit =>
      split
      · next starts => exact takes_word starts fits
      · next noLetter =>
        split
        · next blank => exact takes_other (Piece.munch_blank blank) rfl
        · next noBlank =>
          have munched : Piece.munch c cs = (.unrecognized c, 0) := by
            unfold Piece.munch
            split
            case h_17 => rw [if_neg noDigit, if_neg noLetter, if_neg noBlank]
            all_goals contradiction
          refine takes_other munched ?_
          rw [Piece.item?, fits.cons.toNat, start_after, start_after, bytes_append]
          dsimp only
          rw [Nat.add_sub_cancel_left, bytes_singleton]
  all_goals exact takes_mark fits rfl

/-- From everywhere in a source, the cursor finds the items that are scanned from there. -/
lemma itemsWithin?_behind {cs : List Char} (fits : Fits (before ++ cs)) {rounds : Nat}
    (enough : cs.length < rounds) :
    itemsWithin? rounds (behind before cs) =
      some (scanFrom (Position.start.after before) cs) := by
  induction rounds generalizing before cs with
  | zero => exact absurd enough (Nat.not_lt_zero _)
  | succ rounds ih =>
    cases cs with
    | nil =>
      rw [itemsWithin?, advance?_nil]
      change some [Except.ok (Token.endMark (behind before []).line.toNat _)] = _
      rw [fits.toNat, scanFrom, start_after, behind, List.append_nil]
      rfl
    | cons c cs =>
      obtain ⟨inside, later, piece, rfl, munched, taken⟩ := takes_piece fits
      have shorter : later.length < rounds := by
        rw [List.length_cons, List.length_append] at enough
        omega
      have cut : Cuts (c :: inside) later piece := ⟨c, inside, rfl, munched⟩
      have scanned := cut.scanFrom_eq (Position.start.after before)
      rw [← Position.after_append] at scanned
      rw [itemsWithin?, advance?_cons fits]
      change Option.bind (piece? (bytes before) c _) _ = _
      rw [taken, Option.bind_some]
      change Option.bind (itemsWithin? rounds _) _ = _
      rw [ih fits.take shorter]
      exact congrArg some scanned.symm

/-- The rounds of the cursor are enough for all items behind it. -/
lemma items?_behind {cs : List Char} (fits : Fits (before ++ cs)) :
    (behind before cs).items? = some (scanFrom (Position.start.after before) cs) :=
  itemsWithin?_behind fits length_lt_rounds

/-- With less than 2³² lines, the cursor finds the items of the source. -/
lemma scan?_eq {source : String} (few : source.toList.count '\n' < 2 ^ 32 - 1) :
    scan? source = some (scan source) := by
  have fits : Fits ([] ++ source.toList) := by
    rw [Fits, Lexicon.line, List.nil_append]
    exact Nat.lt_sub_iff_add_lt.mp few
  have found := items?_behind fits
  rw [behind, List.nil_append, String.ofList_toList] at found
  exact found

end Cursor

end Lox
