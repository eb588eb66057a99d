import Lox.Proofs.Relabel.Places
import Lox.Proofs.Scan.Boundaries
import Lox.Proofs.Scan.Spans

/-!
# Tokens by their texts

Every token but the end mark is one that a rule of the lexical grammar describes. So the text of a
punctuation mark or a keyword can be told from its kind, and all that can be told about a name
without knowing its place is its text.
-/

namespace Lox

/-- All tokens of the kind have the same text. -/
abbrev Kind.Single (kind : Kind) : Prop :=
  kind ≠ .number ∧ kind ≠ .string ∧ kind ≠ .identifier

/-- A rule describes the token. -/
def Token.Ruled (t : Token) : Prop :=
  Lexicon.Rule t.lexeme.toList t.kind t.literal

/-- The token is a name. -/
structure Token.IsName (t : Token) : Prop where
  kind : t.kind = .identifier
  ruled : t.Ruled

/-- The token is of a kind that has one text only. -/
structure Token.IsMark (t : Token) (kind : Kind) : Prop where
  single : kind.Single
  kind : t.kind = kind
  ruled : t.Ruled

namespace Lexicon

variable {text text' before cs : List Char} {kind : Kind} {literal literal' : Option Literal}
  {items : List Item}

/-- The texts of punctuation marks, operators and keywords. -/
def spellings : List (String × Kind) :=
  marks.map (fun entry => (String.ofList entry.1, entry.2)) ++ Kind.keywords

/-- Tokens of most kinds have no value, and their text is in the table. -/
lemma Rule.spelling (rule : Rule text kind literal) (single : kind.Single) :
    literal = none ∧ (String.ofList text, kind) ∈ spellings := by
  cases rule with
  | mark mem => exact ⟨rfl, List.mem_append_left _ (List.mem_map_of_mem mem)⟩
  | keyword _ _ mem => exact ⟨rfl, List.mem_append_right _ mem⟩
  | whole | fraction | string | identifier => exact absurd single (by decide)

/-- Of most kinds of tokens there is one text only. -/
lemma Rule.text_unique (rule : Rule text kind literal) (rule' : Rule text' kind literal')
    (single : kind.Single) : text = text' ∧ literal = literal' := by
  obtain ⟨rfl, mem⟩ := rule.spelling single
  obtain ⟨rfl, mem'⟩ := rule'.spelling single
  have nodup : (spellings.map Prod.snd).Nodup := by decide
  have same := List.inj_on_of_nodup_map nodup mem mem' rfl
  exact ⟨String.ofList_injective (Prod.mk.inj same).1, rfl⟩

/-- A name is a word that is not a keyword. -/
lemma Rule.name (rule : Rule text .identifier literal) :
    literal = none ∧ (∃ c cs, text = c :: cs ∧ Letter c ∧ ∀ d ∈ cs, Letter d ∨ Digit d) ∧
      ∀ kind, (String.ofList text, kind) ∉ Kind.keywords := by
  generalize isName : Kind.identifier = kind at rule
  cases rule with
  | mark mem =>
    have others : ∀ entry ∈ marks, entry.2 ≠ .identifier := by decide
    exact absurd isName.symm (others _ mem)
  | keyword _ _ mem =>
    have others : ∀ entry ∈ Kind.keywords, entry.2 ≠ .identifier := by decide
    exact absurd isName.symm (others _ mem)
  | identifier letter others free => exact ⟨rfl, ⟨_, _, rfl, letter, others⟩, free⟩
  | whole | fraction | string => cases isName

/-- A token that begins with a letter is a word, which tells its kind. -/
lemma Rule.kind_of_letter {c : Char} {cs : List Char} (rule : Rule (c :: cs) kind literal)
    (letter : Letter c) : kind = Kind.ofWord (String.ofList (c :: cs)) := by
  have starts := Piece.startsWord_iff.mpr letter
  have noDigit : ¬ Digit c := mt Piece.isDigit_iff.mpr (Piece.not_isDigit_of_startsWord starts)
  generalize word : c :: cs = text at rule ⊢
  cases rule with
  | mark mem =>
    have others : ∀ entry ∈ marks, entry.1.all (!Piece.startsWord ·) = true := by decide
    have mark := List.all_eq_true.mp (others _ mem) c (word ▸ List.mem_cons_self)
    rw [starts] at mark
    cases mark
  | whole _ digits => exact absurd (digits c (word ▸ List.mem_cons_self)) noDigit
  | fraction some digits _ _ =>
    obtain ⟨d, ds, rfl⟩ := List.exists_cons_of_ne_nil some
    obtain ⟨rfl, -⟩ := List.cons.inj word
    exact absurd (digits c List.mem_cons_self) noDigit
  | string _ =>
    obtain ⟨rfl, -⟩ := List.cons.inj word
    exact absurd starts (by decide)
  | keyword _ _ mem => exact (ofWord_of_mem mem).symm
  | identifier _ _ free => exact (ofWord_of_not_mem free).symm

/-- A token that is cut is described by a rule, unless it is the end mark. -/
lemma Tokenized.ruled (h : Tokenized before cs items) :
    ∀ t, .ok t ∈ items → t.kind ≠ .eof → t.Ruled := by
  induction h with
  | done _ =>
    intro t mem inner
    cases List.mem_singleton.mp mem
    exact absurd rfl inner
  | @token before gap text rest kind literal items _ rule _ _ ih =>
    intro t mem inner
    rcases List.mem_cons.mp mem with eq | mem
    · cases eq
      rw [Token.Ruled, Lexicon.token, String.toList_ofList]
      exact rule
    · exact ih t mem inner
  | unterminated _ _ _ ih | unrecognized _ _ _ _ ih =>
    intro t mem inner
    exact ih t (List.mem_of_ne_of_mem (by simp) mem) inner

end Lexicon

namespace Token

variable {t t' : Token} {kind : Kind}

/-- A token that is scanned is described by a rule, unless it is the end mark. -/
lemma ruled_of_mem {source : String} (scanned : .ok t ∈ scan source) (inner : t.kind ≠ .eof) :
    t.Ruled :=
  (tokenized_scan source).ruled t scanned inner

/-- Tokens of one kind with the same text and value are equal but for places. -/
lemma bare_eq (kinds : t.kind = t'.kind) (lexemes : t.lexeme = t'.lexeme)
    (literals : t.literal = t'.literal) : t.bare = t'.bare := by
  rw [bare, bare, kinds, lexemes, literals]

/-- Marks of one kind differ in their places only. -/
lemma IsMark.bare_eq (h : t.IsMark kind) (h' : t'.IsMark kind) : t.bare = t'.bare := by
  have rule := h.ruled
  have rule' := h'.ruled
  rw [Ruled, h.kind] at rule
  rw [Ruled, h'.kind] at rule'
  obtain ⟨texts, literals⟩ := rule.text_unique rule' h.single
  exact Token.bare_eq (h.kind.trans h'.kind.symm) (String.toList_injective texts) literals

/-- Names of one text differ in their places only. -/
lemma IsName.bare_eq (h : t.IsName) (h' : t'.IsName) (lexemes : t.lexeme = t'.lexeme) :
    t.bare = t'.bare := by
  have rule := h.ruled
  have rule' := h'.ruled
  rw [Ruled, h.kind] at rule
  rw [Ruled, h'.kind] at rule'
  exact Token.bare_eq (h.kind.trans h'.kind.symm) lexemes (rule.name.1.trans rule'.name.1.symm)

end Token

end Lox
