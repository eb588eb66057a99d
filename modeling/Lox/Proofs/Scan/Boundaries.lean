import Lox.Proofs.Scan.Munch

/-!
# Where tokens end

A token has no blanks and no quotes in it unless it is a string, and a string ends at its second
quote. So a token ends at a blank: whatever makes it longer has neither blanks nor quotes, and
nothing of it is taken for a gap.
-/

namespace Lox.Lexicon

variable {text more rest : List Char} {kind : Kind} {literal : Option Literal} {c : Char}

/-- Neither a blank nor a quote. -/
def Solid (c : Char) : Prop :=
  ¬ Blank c ∧ c ≠ '"'

/-- What is neither a blank nor a quote is told by the tests of the scanner. -/
lemma solid_iff : Solid c ↔ (!Piece.isGap c && c != '"') = true := by
  rw [Solid, ← Piece.isGap_iff, Bool.and_eq_true, Bool.not_eq_true', Bool.not_eq_true, bne_iff_ne]

/-- Digits are neither blanks nor quotes. -/
lemma Digit.solid (digit : Digit c) : Solid c := by
  rw [← Piece.isDigit_iff] at digit
  refine ⟨?_, ?_⟩
  · rintro (rfl | rfl | rfl | rfl | rfl)
    all_goals exact absurd digit (by decide)
  · rintro rfl
    exact absurd digit (by decide)

/-- Letters are neither blanks nor quotes. -/
lemma Letter.solid (letter : Letter c) : Solid c := by
  rw [← Piece.startsWord_iff] at letter
  refine ⟨?_, ?_⟩
  · rintro (rfl | rfl | rfl | rfl | rfl)
    all_goals exact absurd letter (by decide)
  · rintro rfl
    exact absurd letter (by decide)

/-- The text is that of a string. -/
def Quoted (text : List Char) : Prop :=
  ∃ inside, '"' ∉ inside ∧ text = '"' :: (inside ++ ['"'])

/-- Only strings have blanks or quotes in them. -/
lemma Rule.quoted_or_solid (rule : Rule text kind literal) :
    Quoted text ∨ ∀ c ∈ text, Solid c := by
  have word : ∀ {c : Char} {cs : List Char}, Letter c → (∀ d ∈ cs, Letter d ∨ Digit d) →
      ∀ d ∈ c :: cs, Solid d := by
    intro c cs letter others
    exact List.forall_mem_cons.mpr ⟨letter.solid, fun d mem => (others d mem).elim Letter.solid Digit.solid⟩
  cases rule with
  | mark mem =>
    have all : ∀ entry ∈ marks, entry.1.all (fun c => !Piece.isGap c && c != '"') = true := by
      decide
    exact .inr fun c inside => solid_iff.mpr (List.all_eq_true.mp (all _ mem) c inside)
  | whole _ digits => exact .inr fun c mem => (digits c mem).solid
  | fraction _ digits _ digits' =>
    have point : Solid '.' := solid_iff.mpr (by decide)
    refine .inr (List.forall_mem_append.mpr ⟨fun c mem => (digits c mem).solid, ?_⟩)
    exact List.forall_mem_cons.mpr ⟨point, fun c mem => (digits' c mem).solid⟩
  | @string inside free => exact .inl ⟨inside, free, rfl⟩
  | keyword letter others _ => exact .inr (word letter others)
  | identifier letter others _ => exact .inr (word letter others)

/-- No token starts with a blank. -/
lemma Rule.not_blank_first (rule : Rule (c :: text) kind literal) : ¬ Blank c := by
  rcases rule.quoted_or_solid with ⟨inside, _, eq⟩ | solid
  · rw [(List.cons.inj eq).1, ← Piece.isGap_iff]
    decide
  · exact (solid c List.mem_cons_self).1

/-- The only token that starts with a slash is the slash. -/
lemma Rule.slash (rule : Rule ('/' :: text) kind literal) : text = [] := by
  generalize eq : '/' :: text = whole at rule
  have starts : ∀ c ∈ whole.head?, c = '/' := by
    rw [← eq]
    exact fun c mem => (Option.some.inj mem).symm
  cases rule with
  | mark mem =>
    have all : ∀ entry ∈ marks, entry.1.head? = some '/' → entry.1 = ['/'] := by decide
    exact (List.cons.inj (eq.trans (all _ mem (congrArg List.head? eq.symm)))).2
  | whole some digits =>
    subst eq
    exact absurd (Piece.isDigit_iff.mpr (digits '/' List.mem_cons_self)) (by decide)
  | fraction some digits _ _ =>
    obtain ⟨d, ds, rfl⟩ := List.exists_cons_of_ne_nil some
    obtain rfl : d = '/' := starts d rfl
    exact absurd (Piece.isDigit_iff.mpr (digits '/' List.mem_cons_self)) (by decide)
  | string _ => exact absurd (List.cons.inj eq).1 (by decide)
  | keyword letter _ _ =>
    obtain rfl := (List.cons.inj eq).1
    exact absurd (Piece.startsWord_iff.mpr letter) (by decide)
  | identifier letter _ _ =>
    obtain rfl := (List.cons.inj eq).1
    exact absurd (Piece.startsWord_iff.mpr letter) (by decide)

/-- What makes a token longer has neither blanks nor quotes. -/
lemma Rule.solid_behind (rule : Rule text kind literal) (longer : Lexeme (text ++ more)) :
    ∀ c ∈ more, Solid c := by
  obtain ⟨kind', literal', rule'⟩ := longer
  rcases rule'.quoted_or_solid with ⟨inside, free, eq⟩ | solid
  · -- Both are strings, and the longer one would have the last quote of the shorter one inside.
    have isQuoted : Quoted text := by
      obtain ⟨c, cs, rfl⟩ := List.exists_cons_of_ne_nil rule.ne_nil
      obtain rfl : c = '"' := (List.cons.inj eq).1
      exact rule.quoted_or_solid.resolve_right fun solid => (solid '"' List.mem_cons_self).2 rfl
    obtain ⟨inside', _, rfl⟩ := isQuoted
    rcases List.eq_nil_or_concat more with rfl | ⟨front, last, rfl⟩
    · exact List.forall_mem_nil _
    · have tails := (List.cons.inj eq).2
      rw [List.append_eq, List.concat_eq_append, ← List.append_assoc] at tails
      obtain ⟨same, _⟩ := List.append_inj' tails rfl
      refine absurd ?_ free
      rw [← same]
      exact List.mem_append_left _ (List.mem_append_right _ (List.mem_singleton.mpr rfl))
  · exact fun c mem => solid c (List.mem_append_right text mem)

/-- A token is the longest one in its place if no characters that follow it, other than blanks and
quotes, make it longer. -/
lemma Rule.longest (rule : Rule text kind literal)
    (ends : ∀ c more rest', rest = c :: more ++ rest' → (∀ d ∈ c :: more, Solid d) →
      ¬ Lexeme (text ++ c :: more)) :
    Longest (fun text _ => Lexeme text) text rest := by
  refine ⟨⟨kind, literal, rule⟩, fun {text' rest'} eq lexeme => ?_⟩
  rcases List.append_eq_append_iff.mp eq with ⟨shorter, rfl, _⟩ | ⟨more, rfl, split⟩
  · rw [List.length_append]
    exact Nat.le_add_right _ _
  · cases more with
    | nil => rw [List.append_nil]
    | cons c more => exact absurd lexeme (ends c more rest' split (rule.solid_behind lexeme))

/-- No gap stands in the place of a token. -/
lemma Rule.longest_gap (rule : Rule text kind literal)
    (noComment : text = ['/'] → rest.head? ≠ some '/') : Longest Gap [] (text ++ rest) := by
  refine ⟨.nil _, fun {text' rest'} eq gap => ?_⟩
  obtain ⟨c, cs, rfl⟩ := List.exists_cons_of_ne_nil rule.ne_nil
  cases gap with
  | nil _ => exact Nat.le_refl 0
  | blank blank _ =>
    obtain rfl := (List.cons.inj eq).1
    exact absurd blank rule.not_blank_first
  | comment _ _ _ =>
    obtain ⟨rfl, behind⟩ := List.cons.inj eq
    obtain rfl := rule.slash
    exact absurd (congrArg List.head? behind.symm) (noComment rfl)

end Lox.Lexicon
