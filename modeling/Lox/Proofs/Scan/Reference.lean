import Lox.Decimal.Read
import Lox.Token.Error
import Mathlib.Tactic.Common

/-!
# The lexical grammar

What tokens, blanks and comments look like, and what it means to cut a source by longest matches:
over and over, the longest run of blanks and comments is skipped and the longest text that matches a
rule is taken. Every text can be cut in this way.
-/

namespace Lox.Lexicon

/-- The letters, to which the underscore belongs. -/
def Letter (c : Char) : Prop :=
  ('a' ≤ c ∧ c ≤ 'z') ∨ ('A' ≤ c ∧ c ≤ 'Z') ∨ c = '_'

/-- The digits. -/
def Digit (c : Char) : Prop :=
  '0' ≤ c ∧ c ≤ '9'

/-- The characters that stand between tokens. -/
def Blank (c : Char) : Prop :=
  c = ' ' ∨ c = '\t' ∨ c = '\n' ∨ c = '\x0c' ∨ c = '\r'

/-- The punctuation marks and operators. -/
def marks : List (List Char × Kind) :=
  [(['('], .leftParen), ([')'], .rightParen), (['{'], .leftBrace), (['}'], .rightBrace),
    ([','], .comma), (['.'], .dot), (['-'], .minus), (['+'], .plus), ([';'], .semicolon),
    (['*'], .star), (['/'], .slash), (['!'], .bang), (['!', '='], .bangEqual), (['='], .equal),
    (['=', '='], .equalEqual), (['<'], .less), (['<', '='], .lessEqual), (['>'], .greater),
    (['>', '='], .greaterEqual)]

/-- The texts of tokens, with the kinds of these and the values that they carry. -/
inductive Rule : List Char → Kind → Option Literal → Prop where
  | mark {text : List Char} {kind : Kind} :
    (text, kind) ∈ marks →
    Rule text kind none
  | whole {digits : List Char} :
    digits ≠ [] → (∀ d ∈ digits, Digit d) →
    Rule digits .number (some (.number (Decimal.literal digits)))
  | fraction {digits further : List Char} :
    digits ≠ [] → (∀ d ∈ digits, Digit d) → further ≠ [] → (∀ d ∈ further, Digit d) →
    Rule (digits ++ '.' :: further) .number
      (some (.number (Decimal.literal (digits ++ '.' :: further))))
  | string {inside : List Char} :
    '"' ∉ inside →
    Rule ('"' :: (inside ++ ['"'])) .string (some (.string (String.ofList inside)))
  | keyword {c : Char} {cs : List Char} {kind : Kind} :
    Letter c → (∀ d ∈ cs, Letter d ∨ Digit d) → (String.ofList (c :: cs), kind) ∈ Kind.keywords →
    Rule (c :: cs) kind none
  | identifier {c : Char} {cs : List Char} :
    Letter c → (∀ d ∈ cs, Letter d ∨ Digit d) →
    (∀ kind, (String.ofList (c :: cs), kind) ∉ Kind.keywords) →
    Rule (c :: cs) .identifier none

/-- The text is that of a token. -/
def Lexeme (text : List Char) : Prop :=
  ∃ kind literal, Rule text kind literal

/-- The text consists of blanks and comments, where `rest` follows. A comment goes on to the end of
the line. -/
inductive Gap : List Char → List Char → Prop where
  | nil (rest : List Char) :
    Gap [] rest
  | blank {c : Char} {text rest : List Char} :
    Blank c → Gap text rest →
    Gap (c :: text) rest
  | comment {inside text rest : List Char} :
    '\n' ∉ inside → (∀ c ∈ (text ++ rest).head?, c = '\n') → Gap text rest →
    Gap ('/' :: '/' :: (inside ++ text)) rest

/-- The text is the longest one with a property of all that could be cut off in its place. -/
structure Longest (P : List Char → List Char → Prop) (text rest : List Char) : Prop where
  holds : P text rest
  longest {text' rest' : List Char} :
    text' ++ rest' = text ++ rest → P text' rest' → text'.length ≤ text.length

/-- The bytes of a text. -/
def bytes (text : List Char) : Nat :=
  (String.ofList text).utf8ByteSize

/-- The line at the end of a text. -/
def line (text : List Char) : Nat :=
  text.count '\n' + 1

/-- The token with a text that stands behind another one. -/
def token (before text : List Char) (kind : Kind) (literal : Option Literal) : Token :=
  ⟨kind, String.ofList text, literal, line (before ++ text), ⟨bytes before, bytes text⟩⟩

/-- The error on a text that stands behind another one. -/
def error (before text : List Char) (cause : LexicalCause) : LexicalError :=
  ⟨cause, line (before ++ text), ⟨bytes before, bytes text⟩⟩

/-- The items of a text behind another one. -/
inductive Tokenized : List Char → List Char → List Item → Prop where
  | done {before gap : List Char} :
    Longest Gap gap [] →
    Tokenized before gap [.ok (token (before ++ gap) [] .eof none)]
  | token {before gap text rest : List Char} {kind : Kind} {literal : Option Literal}
    {items : List Item} :
    Longest Gap gap (text ++ rest) → Rule text kind literal →
    Longest (fun text _ => Lexeme text) text rest →
    Tokenized (before ++ gap ++ text) rest items →
    Tokenized before (gap ++ (text ++ rest))
      (.ok (Lexicon.token (before ++ gap) text kind literal) :: items)
  | unterminated {before gap inside : List Char} {items : List Item} :
    Longest Gap gap ('"' :: inside) → '"' ∉ inside →
    Tokenized (before ++ gap ++ '"' :: inside) [] items →
    Tokenized before (gap ++ '"' :: inside)
      (.error (error (before ++ gap) ('"' :: inside) .unterminatedString) :: items)
  | unrecognized {before gap rest : List Char} {c : Char} {items : List Item} :
    Longest Gap gap (c :: rest) → c ≠ '"' →
    (∀ text rest', text ++ rest' = c :: rest → ¬ Lexeme text) →
    Tokenized (before ++ gap ++ [c]) rest items →
    Tokenized before (gap ++ c :: rest)
      (.error (error (before ++ gap) [c] (.unrecognized c)) :: items)

/-- No token is empty. -/
lemma Rule.ne_nil {text : List Char} {kind : Kind} {literal : Option Literal}
    (h : Rule text kind literal) : text ≠ [] := by
  cases h with
  | mark mem =>
    have all : ∀ entry ∈ marks, entry.1 ≠ [] := by decide
    exact all _ mem
  | whole some _ => exact some
  | fraction some _ _ _ => exact List.append_ne_nil_of_left_ne_nil some _
  | string _ => exact List.cons_ne_nil _ _
  | keyword _ _ _ => exact List.cons_ne_nil _ _
  | identifier _ _ _ => exact List.cons_ne_nil _ _

/-- A word is a token, whether or not it is a keyword. -/
lemma lexeme_word {c : Char} {cs : List Char} (letter : Letter c)
    (others : ∀ d ∈ cs, Letter d ∨ Digit d) : Lexeme (c :: cs) := by
  by_cases reserved : ∃ kind, (String.ofList (c :: cs), kind) ∈ Kind.keywords
  · obtain ⟨kind, mem⟩ := reserved
    exact ⟨kind, none, .keyword letter others mem⟩
  · exact ⟨.identifier, none, .identifier letter others (not_exists.mp reserved)⟩

/-- Gaps go on with gaps. -/
lemma Gap.append {gap gap' rest : List Char} (first : Gap gap (gap' ++ rest))
    (second : Gap gap' rest) : Gap (gap ++ gap') rest := by
  generalize eq : gap' ++ rest = all at first
  induction first with
  | nil _ => exact second
  | blank blank _ ih => exact .blank blank (ih eq)
  | @comment inside text rest' free ends _ ih =>
    subst eq
    rw [List.cons_append, List.cons_append, List.append_assoc]
    refine .comment free ?_ (ih rfl)
    rw [List.append_assoc]
    exact ends

/-- If anything with a property can be cut off, so can the longest of it. -/
lemma exists_longest (P : List Char → List Char → Prop) (text rest : List Char)
    (holds : P text rest) :
    ∃ text' rest', text ++ rest = text' ++ rest' ∧ Longest P text' rest' := by
  -- What is left gets shorter with each longer text.
  induction size : rest.length using Nat.strongRecOn generalizing text rest with
  | ind n ih =>
    by_cases longest : ∀ text' rest', text' ++ rest' = text ++ rest → P text' rest' →
        text'.length ≤ text.length
    · exact ⟨text, rest, rfl, holds, fun eq holds' => longest _ _ eq holds'⟩
    · simp only [not_forall, Nat.not_le] at longest
      obtain ⟨text', rest', eq, holds', longer⟩ := longest
      have lengths := congrArg List.length eq
      rw [List.length_append, List.length_append] at lengths
      obtain ⟨text'', rest'', eq', found⟩ := ih rest'.length (by omega) text' rest' holds' rfl
      exact ⟨text'', rest'', eq.symm.trans eq', found⟩

/-- Every text can be cut into items. -/
lemma exists_tokenized (before cs : List Char) : ∃ items, Tokenized before cs items := by
  induction size : cs.length using Nat.strongRecOn generalizing before cs with
  | ind n ih =>
    obtain ⟨gap, rest, eq, skipped⟩ := exists_longest Gap [] cs (.nil cs)
    rw [List.nil_append] at eq
    subst eq
    cases rest with
    | nil =>
      rw [List.append_nil]
      exact ⟨_, .done skipped⟩
    | cons c rest =>
      have shorter : rest.length < n := by
        rw [← size, List.length_append, List.length_cons]
        omega
      by_cases found : ∃ text rest', text ++ rest' = c :: rest ∧ Lexeme text
      · obtain ⟨text, rest', eq, lexeme⟩ := found
        obtain ⟨text', rest'', eq', longest⟩ :=
          exists_longest (fun text _ => Lexeme text) text rest' lexeme
        obtain ⟨kind, literal, rule⟩ := longest.holds
        rw [eq] at eq'
        rw [eq'] at skipped ⊢
        have lengths := congrArg List.length eq'
        rw [List.length_append, List.length_cons] at lengths
        have pos := List.length_pos_iff.mpr rule.ne_nil
        obtain ⟨items, tail⟩ := ih rest''.length (by omega) (before ++ gap ++ text') rest'' rfl
        exact ⟨_, .token skipped rule longest tail⟩
      · have none : ∀ text rest', text ++ rest' = c :: rest → ¬ Lexeme text :=
          fun text rest' eq lexeme => found ⟨text, rest', eq, lexeme⟩
        by_cases quote : c = '"'
        · subst quote
          -- With another quote further on, there would be a string.
          have isOpen : '"' ∉ rest := by
            intro mem
            obtain ⟨inside, rest', rfl, free⟩ := List.eq_append_cons_of_mem mem
            refine none ('"' :: (inside ++ ['"'])) rest' ?_ ⟨_, _, .string free⟩
            rw [List.cons_append, List.append_assoc, List.singleton_append]
          obtain ⟨items, tail⟩ :=
            ih 0 (Nat.zero_lt_of_lt shorter) (before ++ gap ++ '"' :: rest) [] rfl
          exact ⟨_, .unterminated skipped isOpen tail⟩
        · obtain ⟨items, tail⟩ := ih rest.length shorter (before ++ gap ++ [c]) rest rfl
          exact ⟨_, .unrecognized skipped quote none tail⟩

end Lox.Lexicon
