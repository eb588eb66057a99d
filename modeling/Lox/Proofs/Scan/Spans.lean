import Lox.Proofs.Scan.Items
import Lox.Proofs.Scan.Munch

/-!
# The places of items

The items of a source are those of its cut by longest matches. So each byte of the source belongs to
one item or to one gap between items, the lexeme of a token is what stands in the place of the token,
and errors are in the places of the texts that they are about.
-/

namespace Lox

/-- The span is a place of the text in the source. -/
def Span.Covers (span : Span) (source text : String) : Prop :=
  ∃ before behind,
    source = before ++ text ++ behind ∧ span = ⟨before.utf8ByteSize, text.utf8ByteSize⟩

/-- The byte is one of the span. -/
def Span.Contains (span : Span) (byte : Nat) : Prop :=
  span.start ≤ byte ∧ byte < span.stop

/-- Whether a byte is one of a span is decided by comparing it with both ends. -/
instance (span : Span) (byte : Nat) : Decidable (span.Contains byte) :=
  inferInstanceAs (Decidable (_ ∧ _))

/-- The error is in the place of the text that it is about: a character that starts nothing, or an
opening quote with all that follows it. -/
inductive LexicalError.Over (source : String) (e : LexicalError) : String → Prop where
  | unrecognized {c : Char} :
    e.cause = .unrecognized c → e.span.Covers source (String.singleton c) →
    Over source e (String.singleton c)
  | unterminated {inside : String} :
    e.cause = .unterminatedString → '"' ∉ inside.toList → e.span.Covers source ("\"" ++ inside) →
    e.span.stop = source.utf8ByteSize →
    Over source e ("\"" ++ inside)

/-- The item is in the place of its text. -/
def Item.StandsIn (source : String) : Item → Prop
  | .ok token => token.span.Covers source token.lexeme
  | .error e => ∃ text, e.Over source text

/-- The value of a string is the text between its quotes. -/
def Item.Unquoted : Item → Prop
  | .ok token => token.kind = .string → ∃ inside, '"' ∉ inside.toList ∧
      token.lexeme = "\"" ++ inside ++ "\"" ∧ token.literal = some (.string inside)
  | .error _ => True

namespace Lexicon

variable {before text rest gap cs : List Char} {kind : Kind} {literal : Option Literal}
  {items : List Item}

/-- A text covers its bytes behind those of what stands before it. -/
lemma covers_ofList (before text rest : List Char) :
    Span.Covers ⟨bytes before, bytes text⟩ (String.ofList (before ++ (text ++ rest)))
      (String.ofList text) := by
  refine ⟨String.ofList before, String.ofList rest, ?_, rfl⟩
  rw [String.ofList_append, String.ofList_append, ← String.append_assoc]

/-- All items stand in the text that is cut, behind what stands before it. -/
lemma Tokenized.standsIn (h : Tokenized before cs items) :
    ∀ item ∈ items, item.StandsIn (String.ofList (before ++ cs)) := by
  induction h with
  | @done before gap skipped =>
    rw [List.forall_mem_singleton]
    have covers := covers_ofList (before ++ gap) [] []
    rw [List.append_nil, List.append_nil] at covers
    exact covers
  | @token before gap text rest kind literal items _ _ _ _ ih =>
    rw [← List.append_assoc]
    rw [List.append_assoc] at ih
    refine List.forall_mem_cons.mpr ⟨covers_ofList (before ++ gap) text rest, ih⟩
  | @unterminated before gap inside items _ free _ ih =>
    rw [← List.append_assoc]
    rw [List.append_nil] at ih
    have text : String.ofList ('"' :: inside) = "\"" ++ String.ofList inside := by
      rw [String.ofList_cons]
      rfl
    have covers := covers_ofList (before ++ gap) ('"' :: inside) []
    rw [List.append_nil, text] at covers
    refine List.forall_mem_cons.mpr ⟨⟨_, .unterminated rfl ?_ covers ?_⟩, ih⟩
    · rw [String.toList_ofList]
      exact free
    · exact (bytes_append (before ++ gap) ('"' :: inside)).symm
  | @unrecognized before gap rest c items _ _ _ _ ih =>
    rw [← List.append_assoc]
    rw [List.append_assoc] at ih
    refine List.forall_mem_cons.mpr ⟨⟨_, .unrecognized rfl ?_⟩, ih⟩
    exact covers_ofList (before ++ gap) [c] rest

/-- The items of strings are unquoted. -/
lemma Tokenized.unquoted (h : Tokenized before cs items) : ∀ item ∈ items, item.Unquoted := by
  induction h with
  | done _ =>
    rw [List.forall_mem_singleton]
    exact nofun
  | @token before gap text rest kind literal items _ rule _ _ ih =>
    refine List.forall_mem_cons.mpr ⟨fun isString => ?_, ih⟩
    change kind = .string at isString
    cases rule with
    | mark mem =>
      have others : ∀ entry ∈ marks, entry.2 ≠ .string := by decide
      exact (others _ mem isString).elim
    | whole _ _ => cases isString
    | fraction _ _ _ _ => cases isString
    | @string inside free =>
      refine ⟨String.ofList inside, ?_, ?_, rfl⟩
      · rw [String.toList_ofList]
        exact free
      · change String.ofList ('"' :: (inside ++ ['"'])) = _
        rw [String.ofList_cons, String.ofList_append, ← String.append_assoc]
        rfl
    | keyword _ _ mem =>
      have others : ∀ entry ∈ Kind.keywords, entry.2 ≠ .string := by decide
      exact (others _ mem isString).elim
    | identifier _ _ _ => cases isString
  | unterminated _ _ _ ih => exact List.forall_mem_cons.mpr ⟨trivial, ih⟩
  | unrecognized _ _ _ _ ih => exact List.forall_mem_cons.mpr ⟨trivial, ih⟩

/-- A span in front of spans that share out all bytes from its end on. -/
lemma countP_contains_cons {span : Span} {spans : List Span} {stop : Nat} (within : span.stop ≤ stop)
    (later : ∀ byte, spans.countP (·.Contains byte) =
      if span.stop ≤ byte ∧ byte < stop then 1 else 0) (byte : Nat) :
    (span :: spans).countP (·.Contains byte) =
      if span.start ≤ byte ∧ byte < stop then 1 else 0 := by
  rw [List.countP_cons, later]
  by_cases inside : span.Contains byte
  · rw [if_neg fun behind => Nat.not_le_of_lt inside.2 behind.1, if_pos (decide_eq_true inside),
      if_pos ⟨inside.1, Nat.lt_of_lt_of_le inside.2 within⟩]
  · rw [if_neg (mt of_decide_eq_true inside), Nat.add_zero]
    refine if_congr ⟨fun behind => ⟨?_, behind.2⟩, fun behind => ⟨?_, behind.2⟩⟩ rfl rfl
    · exact Nat.le_trans (Nat.le_add_right _ _) behind.1
    · exact Nat.not_lt.mp fun before => inside ⟨behind.1, before⟩

/-- A gap and the item behind it share out their bytes. -/
lemma countP_contains_cut {item : Item} {items : List Item} {gaps : List Span} {stop : Nat}
    (place : item.span = ⟨bytes (before ++ gap), bytes text⟩)
    (within : bytes (before ++ gap ++ text) ≤ stop)
    (later : ∀ byte, (items.map Item.span ++ gaps).countP (·.Contains byte) =
      if bytes (before ++ gap ++ text) ≤ byte ∧ byte < stop then 1 else 0) (byte : Nat) :
    ((item :: items).map Item.span ++ ⟨bytes before, bytes gap⟩ :: gaps).countP (·.Contains byte) =
      if bytes before ≤ byte ∧ byte < stop then 1 else 0 := by
  have gapStop : Span.stop ⟨bytes before, bytes gap⟩ = bytes (before ++ gap) :=
    (bytes_append before gap).symm
  have itemStop : item.span.stop = bytes (before ++ gap ++ text) := by
    rw [place]
    exact (bytes_append (before ++ gap) text).symm
  have itemStart : item.span.start = bytes (before ++ gap) := by rw [place]
  have first := countP_contains_cons (itemStop ▸ within) (itemStop ▸ later)
  rw [itemStart, ← gapStop] at first
  have reach : Span.stop ⟨bytes before, bytes gap⟩ ≤ stop := by
    rw [gapStop]
    rw [bytes_append] at within
    exact Nat.le_of_add_right_le within
  rw [List.perm_middle.countP_eq]
  exact countP_contains_cons reach first byte

/-- The gaps between the items of a text, each of its bytes in one of these or of the items. -/
structure Shares (before cs : List Char) (items : List Item) (gaps : List Span) : Prop where
  places : ∀ gap ∈ gaps, ∃ earlier text rest, before ++ cs = earlier ++ (text ++ rest) ∧
    Longest Gap text rest ∧ gap = ⟨bytes earlier, bytes text⟩
  once (byte : Nat) : (items.map Item.span ++ gaps).countP (·.Contains byte) =
    if bytes before ≤ byte ∧ byte < bytes (before ++ cs) then 1 else 0

/-- An item and the gap before it have their share of the text if the later ones have theirs. -/
lemma Shares.cut {item : Item} {gaps : List Span} (skipped : Longest Gap gap (text ++ rest))
    (place : item.span = ⟨bytes (before ++ gap), bytes text⟩)
    (later : Shares (before ++ gap ++ text) rest items gaps) :
    Shares before (gap ++ (text ++ rest)) (item :: items) (⟨bytes before, bytes gap⟩ :: gaps) := by
  have same : before ++ (gap ++ (text ++ rest)) = before ++ gap ++ text ++ rest := by
    simp only [List.append_assoc]
  constructor
  · refine List.forall_mem_cons.mpr ⟨⟨before, gap, text ++ rest, rfl, skipped, rfl⟩, ?_⟩
    rw [same]
    exact later.places
  · rw [same]
    refine countP_contains_cut place ?_ later.once
    rw [bytes_append _ rest]
    exact Nat.le_add_right _ _

/-- Each byte belongs to one item or to one gap. -/
lemma Tokenized.shares (h : Tokenized before cs items) : ∃ gaps, Shares before cs items gaps := by
  induction h with
  | @done before gap skipped =>
    have nothing : Shares (before ++ gap ++ []) [] [] [] := by
      refine ⟨List.forall_mem_nil _, fun byte => ?_⟩
      rw [List.append_nil (before ++ gap ++ []),
        if_neg fun inside => Nat.not_le_of_lt inside.2 inside.1]
      rfl
    have passed : Longest Gap gap ([] ++ []) := skipped
    have all : Shares before (gap ++ ([] ++ []))
      [.ok (Lexicon.token (before ++ gap) [] .eof none)] _ := nothing.cut passed rfl
    rw [List.append_nil, List.append_nil] at all
    exact ⟨_, all⟩
  | token skipped _ _ _ ih =>
    obtain ⟨gaps, later⟩ := ih
    exact ⟨_, later.cut skipped rfl⟩
  | @unterminated before gap inside items skipped _ _ ih =>
    obtain ⟨gaps, later⟩ := ih
    have passed : Longest Gap gap ('"' :: inside ++ []) := by
      rw [List.append_nil]
      exact skipped
    have all : Shares before (gap ++ ('"' :: inside ++ []))
      (.error (error (before ++ gap) ('"' :: inside) .unterminatedString) :: items) _ :=
        later.cut passed rfl
    rw [List.append_nil] at all
    exact ⟨_, all⟩
  | unrecognized skipped _ _ _ ih =>
    obtain ⟨gaps, later⟩ := ih
    exact ⟨_, later.cut skipped rfl⟩

end Lexicon

/-- Scanning a source cuts it by longest matches. -/
lemma tokenized_scan (source : String) : Lexicon.Tokenized [] source.toList (scan source) := by
  obtain ⟨items, tokenized⟩ := Lexicon.exists_tokenized [] source.toList
  have scanned : scan source = items := tokenized.scanFrom_eq
  rw [scanned]
  exact tokenized

/-- All items of a source stand in it. -/
lemma standsIn_of_mem_scan {source : String} : ∀ item ∈ scan source, item.StandsIn source := by
  have all := (tokenized_scan source).standsIn
  rw [List.nil_append, String.ofList_toList] at all
  exact all

/-- The last item is the end mark, at the end of the source, and no other item is one. -/
lemma scan_eq_append (source : String) :
    ∃ items line, scan source = items ++ [.ok (.endMark line source.utf8ByteSize)] ∧
      ∀ token, .ok token ∈ items → token.kind ≠ .eof := by
  obtain ⟨items, eq, noEnd⟩ := scanFrom_eq_append .start source.toList
  have stop : (Position.start.after source.toList).offset = source.utf8ByteSize := by
    rw [Lexicon.start_after, Lexicon.bytes, String.ofList_toList]
  rw [stop] at eq
  exact ⟨items, _, eq, noEnd⟩

/-- What scanning makes of a source. -/
structure ScanLaw (source : String) : Prop where
  /-- The items are those that longest matches leave. -/
  reference (items : List Item) : scan source = items ↔ Lexicon.Tokenized [] source.toList items
  shares : ∃ gaps, Lexicon.Shares [] source.toList (scan source) gaps
  standsIn : ∀ item ∈ scan source, item.StandsIn source
  unquoted : ∀ item ∈ scan source, item.Unquoted
  ended : ∃ items line, scan source = items ++ [.ok (.endMark line source.utf8ByteSize)] ∧
    ∀ token, .ok token ∈ items → token.kind ≠ .eof

/-- Scanning is cutting by longest matches, and nothing else is. So nothing of a source is lost or
read twice, and each item stands in its place. -/
theorem scan_law (source : String) : ScanLaw source where
  reference items := by
    constructor
    · rintro rfl
      exact tokenized_scan source
    · exact fun other => other.scanFrom_eq
  shares := (tokenized_scan source).shares
  standsIn := standsIn_of_mem_scan
  unquoted := (tokenized_scan source).unquoted
  ended := scan_eq_append source

end Lox
