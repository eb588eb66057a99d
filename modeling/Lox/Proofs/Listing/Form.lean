import Lox.Syntax.Listing
import Mathlib

/-!
# S-expressions

What a tree is listed as: a word, or forms in parentheses with spaces between them. If no word has
spaces or parentheses in it, a listing has one reading only, and it can be told where it ends.
-/

namespace Lox

/-- An S-expression. -/
inductive Form where
  | word (text : String)
  | list (items : List Form)

namespace Form

mutual

/-- The text of an S-expression. -/
def text : Form → String
  | word w => w
  | list items => Sexpr.paren (texts items)

/-- The texts of S-expressions. -/
def texts : List Form → List String
  | [] => []
  | f :: rest => f.text :: texts rest

end

/-- The character can stand in a word. -/
def Plain (c : Char) : Prop :=
  c ∉ [' ', '\n', '(', ')']

/-- Whether a character can stand in a word is decided by looking at it. -/
instance : DecidablePred Plain :=
  fun c => inferInstanceAs (Decidable (c ∉ _))

/-- All words in the form have characters, and only such as can stand in words. -/
inductive Proper : Form → Prop where
  | word {w : String} :
    w ≠ "" → (∀ c ∈ w.toList, Plain c) →
    Proper (word w)
  | list {items : List Form} :
    (∀ f ∈ items, Proper f) →
    Proper (list items)

/-- No word goes on here. -/
def Ends (rest : List Char) : Prop :=
  ∀ c ∈ rest.head?, ¬ Plain c

/-- The texts of forms with spaces between them. -/
def inside (items : List Form) : List Char :=
  [' '].intercalate (items.map (·.text.toList))

/-- What follows the first of some forms in parentheses, with the others. -/
def behind (others : List Form) (r : List Char) : List Char :=
  if others = [] then ')' :: r else ' ' :: (inside others ++ ')' :: r)

/-- Where the text of a form stands, there is no other form. -/
def Determined (f : Form) : Prop :=
  ∀ {g : Form} {r s : List Char}, g.Proper → Ends r → Ends s →
    f.text.toList ++ r = g.text.toList ++ s → f = g ∧ r = s

variable {f g : Form} {items : List Form} {v w : String} {r s : List Char}

/-- The texts of S-expressions are those of each of them. -/
lemma texts_eq_map (items : List Form) : texts items = items.map text := by
  induction items with
  | nil => rfl
  | cons f rest ih => exact congrArg (f.text :: ·) ih

/-- The text of a list is what stands between its parentheses. -/
lemma toList_list (items : List Form) :
    (list items).text.toList = '(' :: (inside items ++ [')']) := by
  rw [text, Sexpr.paren, texts_eq_map, String.toList_append, String.toList_append,
    String.toList_intercalate, List.map_map, inside]
  rfl

/-- Behind the first of some forms in parentheses stand the others. -/
lemma inside_cons (f : Form) (others : List Form) (r : List Char) :
    inside (f :: others) ++ ')' :: r = f.text.toList ++ behind others r := by
  cases others with
  | nil =>
    rw [inside, List.map_cons, List.map_nil, List.intercalate_singleton]
    rfl
  | cons g rest =>
    rw [inside, List.map_cons, List.map_cons, List.intercalate_cons_cons, List.append_assoc,
      List.append_assoc]
    rfl

/-- A list without items is proper. -/
lemma Proper.nil : (Form.list []).Proper :=
  .list (List.forall_mem_nil _)

/-- A list is proper if its first item is and the list of the others is. -/
lemma Proper.cons (first : f.Proper) (others : (Form.list items).Proper) :
    (Form.list (f :: items)).Proper := by
  cases others with
  | list all => exact .list (List.forall_mem_cons.mpr ⟨first, all⟩)

/-- No form starts with a closing parenthesis. -/
lemma Proper.first (proper : f.Proper) : ∃ c cs, f.text.toList = c :: cs ∧ c ≠ ')' := by
  cases proper with
  | @word w some plain =>
    obtain ⟨c, cs, eq⟩ := List.exists_cons_of_ne_nil (mt String.toList_eq_nil_iff.mp some)
    refine ⟨c, cs, eq, ?_⟩
    rintro rfl
    rw [eq] at plain
    exact absurd (plain ')' List.mem_cons_self) (by decide)
  | @list items _ => exact ⟨'(', _, toList_list items, by decide⟩

/-- A word goes on as long as there are characters of words. -/
lemma takeWhile_word (plain : ∀ c ∈ w.toList, Plain c) (ends : Ends r) :
    (w.toList ++ r).takeWhile (Plain ·) = w.toList := by
  rw [List.takeWhile_append_of_pos fun c mem => decide_eq_true (plain c mem)]
  cases r with
  | nil => exact List.append_nil _
  | cons c rest => rw [List.takeWhile_cons_of_neg (by simpa using ends c rfl), List.append_nil]

/-- No word starts with a parenthesis. -/
lemma word_ne_list (some : w ≠ "") (plain : ∀ c ∈ w.toList, Plain c) :
    w.toList ++ r ≠ (list items).text.toList ++ s := by
  obtain ⟨c, cs, eq⟩ := List.exists_cons_of_ne_nil (mt String.toList_eq_nil_iff.mp some)
  rw [toList_list, eq]
  intro same
  obtain rfl : c = '(' := (List.cons.inj same).1
  rw [eq] at plain
  exact absurd (plain '(' List.mem_cons_self) (by decide)

/-- A word ends where the first of some forms does. -/
lemma ends_behind (others : List Form) (r : List Char) : Ends (behind others r) := by
  rw [behind]
  split
  · rintro c ⟨⟩
    decide
  · rintro c ⟨⟩
    decide

/-- Among closing parentheses, no form starts. -/
lemma inside_cons_ne (proper : f.Proper) (others : List Form) :
    inside (f :: others) ++ ')' :: r ≠ ')' :: s := by
  obtain ⟨c, cs, eq, other⟩ := proper.first
  rw [inside_cons, eq]
  exact fun same => other (List.cons.inj same).1

/-- Forms in parentheses can be told from each other and from what follows them. -/
lemma inside_determined {items' : List Form} (all : ∀ f ∈ items, f.Determined)
    (proper : ∀ f ∈ items, f.Proper) (proper' : ∀ g ∈ items', g.Proper)
    (same : inside items ++ ')' :: r = inside items' ++ ')' :: s) : items = items' ∧ r = s := by
  induction items generalizing items' with
  | nil =>
    cases items' with
    | nil => exact ⟨rfl, (List.cons.inj same).2⟩
    | cons g others' => exact absurd same.symm (inside_cons_ne (proper' g List.mem_cons_self) _)
  | cons f others ih =>
    obtain ⟨determined, determinedAll⟩ := List.forall_mem_cons.mp all
    obtain ⟨first, more⟩ := List.forall_mem_cons.mp proper
    cases items' with
    | nil => exact absurd same (inside_cons_ne first others)
    | cons g others' =>
      obtain ⟨first', more'⟩ := List.forall_mem_cons.mp proper'
      rw [inside_cons, inside_cons] at same
      obtain ⟨rfl, tails⟩ := determined first' (ends_behind others r) (ends_behind others' s) same
      -- A space follows if there are others, and else the end.
      rw [behind, behind] at tails
      split at tails
      · next none =>
        split at tails
        · next none' => exact ⟨by rw [none, none'], (List.cons.inj tails).2⟩
        · exact absurd (List.cons.inj tails).1 (by decide)
      · split at tails
        · exact absurd (List.cons.inj tails).1 (by decide)
        · obtain ⟨rfl, rests⟩ := ih determinedAll more more' (List.cons.inj tails).2
          exact ⟨rfl, rests⟩

/-- A proper form is read in one way only. -/
lemma Proper.determined (proper : f.Proper) : f.Determined := by
  induction proper with
  | @word w some plain =>
    intro g r s proper' ends ends' same
    cases proper' with
    | @word w' _ plain' =>
      have words := congrArg (List.takeWhile (Plain ·)) same
      rw [text, text, takeWhile_word plain ends, takeWhile_word plain' ends'] at words
      obtain rfl := String.toList_injective words
      exact ⟨rfl, List.append_cancel_left same⟩
    | list _ => exact absurd same (word_ne_list some plain)
  | @list items proper all =>
    intro g r s proper' _ _ same
    cases proper' with
    | @word w' some' plain' => exact absurd same.symm (word_ne_list some' plain')
    | @list items' proper' =>
      rw [toList_list, toList_list, List.cons_append, List.cons_append, List.append_assoc,
        List.append_assoc] at same
      obtain ⟨rfl, tails⟩ := inside_determined all proper proper' (List.cons.inj same).2
      exact ⟨rfl, tails⟩

/-- Proper forms with the same text are the same. -/
lemma Proper.text_injective (proper : f.Proper) (proper' : g.Proper) (same : f.text = g.text) :
    f = g := by
  have ends : Ends [] := nofun
  exact (proper.determined proper' ends ends (congrArg (String.toList · ++ []) same)).1

/-- There is no line feed between the parentheses if there is none in the items. -/
lemma newline_not_mem_inside (all : ∀ f ∈ items, '\n' ∉ f.text.toList) :
    '\n' ∉ inside items := by
  induction items with
  | nil => exact List.not_mem_nil
  | cons f others ih =>
    obtain ⟨first, more⟩ := List.forall_mem_cons.mp all
    have free := ih more
    rw [inside] at free ⊢
    cases others with
    | nil => simpa using first
    | cons g rest => simpa [first] using free

/-- There is no line feed in a proper form. -/
lemma Proper.newline_not_mem (proper : f.Proper) : '\n' ∉ f.text.toList := by
  induction proper with
  | word _ plain => exact fun mem => absurd (plain '\n' mem) (by decide)
  | list _ all => simpa [toList_list] using newline_not_mem_inside all

/-- Proper forms with the same texts are the same. -/
lemma eq_of_texts {items' : List Form} (proper : ∀ f ∈ items, f.Proper)
    (proper' : ∀ g ∈ items', g.Proper) (same : items.map text = items'.map text) :
    items = items' := by
  induction items generalizing items' with
  | nil => exact (List.map_eq_nil_iff.mp same.symm).symm
  | cons f others ih =>
    obtain ⟨first, more⟩ := List.forall_mem_cons.mp proper
    cases items' with
    | nil => exact nomatch same
    | cons g others' =>
      obtain ⟨first', more'⟩ := List.forall_mem_cons.mp proper'
      obtain ⟨texts, rests⟩ := List.cons.inj same
      rw [first.text_injective first' texts, ih more more' rests]

/-- The lines of a listing are the texts of its forms, if there are any. -/
lemma splitOn_lines (proper : ∀ f ∈ items, f.Proper) (some : items ≠ []) :
    ("\n".intercalate (items.map text)).toList.splitOn '\n' =
      (items.map text).map String.toList := by
  rw [String.toList_intercalate]
  refine List.splitOn_intercalate '\n' ?_ (by simpa using some)
  intro line mem
  obtain ⟨_, listed, rfl⟩ := List.mem_map.mp mem
  obtain ⟨f, item, rfl⟩ := List.mem_map.mp listed
  exact (proper f item).newline_not_mem

/-- Nothing is listed only if there is nothing to be listed. -/
lemma lines_ne_empty (proper : ∀ f ∈ items, f.Proper) (some : items ≠ []) :
    "\n".intercalate (items.map text) ≠ "" := by
  intro empty
  have lines := splitOn_lines proper some
  obtain ⟨f, others, rfl⟩ := List.exists_cons_of_ne_nil some
  obtain ⟨c, cs, eq, -⟩ := (proper f List.mem_cons_self).first
  rw [empty, List.map_cons, List.map_cons, eq] at lines
  exact nomatch (List.cons.inj lines).1

/-- Proper forms on lines of their own can be told from each other. -/
lemma eq_of_lines {items' : List Form} (proper : ∀ f ∈ items, f.Proper)
    (proper' : ∀ g ∈ items', g.Proper)
    (same : "\n".intercalate (items.map text) = "\n".intercalate (items'.map text)) :
    items = items' := by
  by_cases none : items = []
  · subst none
    by_contra some
    exact lines_ne_empty proper' (Ne.symm some) same.symm
  · have some' : items' ≠ [] := by
      rintro rfl
      exact lines_ne_empty proper none same
    have lines := splitOn_lines proper none
    rw [same, splitOn_lines proper' some'] at lines
    exact eq_of_texts proper proper' (List.map_injective_iff.mpr (fun _ _ => String.toList_injective) lines.symm)

end Form

end Lox
