import Lox.Proofs.Listing.Tree

/-!
# Listings have one reading

In a tree that was read from a source, the tokens of names, operators, parentheses and keywords can
be told from what its listing shows. If there are no strings in it, for which nothing in a listing
stands, the tree can be told from the listing but for the places of its tokens.
-/

namespace Lox

/-- The literal can be told from its listing. -/
def Atom.Plain : Atom → Prop
  | .number x => x.isFinite = true
  | .boolean _ | .nil => True
  | .string _ => False

/-- The token is a mark of a kind with a property. -/
def Token.Spells (t : Token) (P : Kind → Prop) : Prop :=
  ∃ kind, P kind ∧ t.IsMark kind

mutual

/-- The tokens of the expression are what its listing shows, and its literals are plain. -/
def Expr.Spelled : Expr → Prop
  | .literal atom => atom.Plain
  | .ident name => name.IsName
  | .group inner => inner.Spelled
  | .assign name value => name.IsName ∧ value.Spelled
  | .unary op token operand => token.Spells (Grammar.Unary · op) ∧ operand.Spelled
  | .binary op token left right =>
    token.Spells (fun kind => ∃ level, Grammar.Binary level kind op) ∧ left.Spelled ∧ right.Spelled
  | .logical op token left right =>
    token.Spells (fun kind => ∃ level, Grammar.Logical level kind op) ∧ left.Spelled ∧ right.Spelled
  | .call callee paren arguments =>
    paren.IsMark .rightParen ∧ callee.Spelled ∧ Expr.SpelledAll arguments

/-- The expressions are spelled as they are listed. -/
def Expr.SpelledAll : List Expr → Prop
  | [] => True
  | e :: rest => e.Spelled ∧ Expr.SpelledAll rest

end

mutual

/-- The tokens of the statement are what its listing shows, and its literals are plain. -/
def Stmt.Spelled : Stmt → Prop
  | .var name initializer => name.IsName ∧ Expr.SpelledAll initializer.toList
  | .function name parameters body =>
    name.IsName ∧ (∀ p ∈ parameters, p.IsName) ∧ Stmt.SpelledAll body
  | .expression e => e.Spelled
  | .print e => e.Spelled
  | .block body => Stmt.SpelledAll body
  | .ifThen condition thenBranch => condition.Spelled ∧ thenBranch.Spelled
  | .ifElse condition thenBranch elseBranch =>
    condition.Spelled ∧ thenBranch.Spelled ∧ elseBranch.Spelled
  | .loop condition step body => step = none ∧ condition.Spelled ∧ body.Spelled
  | .ret keyword value => keyword.IsMark .kwReturn ∧ Expr.SpelledAll value.toList

/-- The statements are spelled as they are listed. -/
def Stmt.SpelledAll : List Stmt → Prop
  | [] => True
  | s :: rest => s.Spelled ∧ Stmt.SpelledAll rest

end

section

open Lexicon Decimal

variable {c : Char} {name : Token} {x : Float}

/-- Letters can stand in words. -/
lemma plain_of_letter (letter : Letter c) : Form.Plain c := by
  rw [← Piece.startsWord_iff] at letter
  simp only [Form.Plain, List.mem_cons, List.not_mem_nil, or_false]
  rintro (rfl | rfl | rfl | rfl)
  all_goals exact absurd letter (by decide)

/-- Digits can stand in words. -/
lemma plain_of_digit (digit : c.isDigit = true) : Form.Plain c := by
  simp only [Form.Plain, List.mem_cons, List.not_mem_nil, or_false]
  rintro (rfl | rfl | rfl | rfl)
  all_goals exact absurd digit (by decide)

/-- A word is proper if it has characters and only such as can stand in words. -/
lemma Form.Proper.of_all {w : String} (some : w ≠ "")
    (all : w.toList.all (Form.Plain ·) = true) : (Form.word w).Proper :=
  .word some fun c mem => of_decide_eq_true (List.all_eq_true.mp all c mem)

/-- A name is described by the rule for names. -/
lemma Token.IsName.rule (h : name.IsName) : Rule name.lexeme.toList .identifier name.literal := by
  rw [← h.kind]
  exact h.ruled

/-- A name is a word. -/
lemma Token.IsName.proper (h : name.IsName) : (Form.word name.lexeme).Proper := by
  obtain ⟨-, ⟨c, cs, eq, letter, others⟩, -⟩ := h.rule.name
  refine .word ?_ ?_
  · intro empty
    rw [empty] at eq
    cases eq
  · rw [eq]
    refine List.forall_mem_cons.mpr ⟨plain_of_letter letter, fun d mem => ?_⟩
    exact (others d mem).elim plain_of_letter fun digit =>
      plain_of_digit (Piece.isDigit_iff.mpr digit)

/-- A finite number is a word. -/
lemma proper_number (finite : x.isFinite = true) : (Form.word (Layout.listed.text x)).Proper := by
  obtain ⟨all, c, cs, eq, -⟩ := chars_cases .listed finite
  refine .word ?_ ?_
  · intro empty
    have none := Layout.listed.toList_text x
    rw [empty, eq] at none
    cases none
  · rw [Layout.toList_text]
    intro c mem
    rcases all c mem with digit | mark
    · exact plain_of_digit digit
    · have plain : ['.', 'e', '-'].all (Form.Plain ·) = true := by decide
      exact of_decide_eq_true (List.all_eq_true.mp plain c mark)

/-- A plain literal is a proper word. -/
lemma Atom.Plain.proper {atom : Atom} (plain : atom.Plain) : (Form.word atom.sexpr).Proper := by
  cases atom with
  | number x => exact proper_number plain
  | boolean b => cases b <;> exact .of_all (by decide) (by decide)
  | nil => exact .of_all (by decide) (by decide)
  | string s => exact plain.elim

/-- The symbol of an operator in front is a proper word. -/
lemma PrefixOp.proper_symbol (op : PrefixOp) : (Form.word op.symbol).Proper := by
  cases op <;> exact .of_all (by decide) (by decide)

/-- The symbol of an operator that evaluates both sides is a proper word. -/
lemma BinaryOp.proper_symbol (op : BinaryOp) : (Form.word op.symbol).Proper := by
  cases op <;> exact .of_all (by decide) (by decide)

/-- The symbol of an operator that may leave its right side alone is a proper word. -/
lemma LogicalOp.proper_symbol (op : LogicalOp) : (Form.word op.symbol).Proper := by
  cases op <;> exact .of_all (by decide) (by decide)

end

section

variable {t t' : Token} {op : PrefixOp} {op' : BinaryOp} {op'' : LogicalOp}

/-- If only one kind has the property, the token is determined but for its place. -/
lemma Token.Spells.bare_eq {P : Kind → Prop} (h : t.Spells P) (h' : t'.Spells P)
    (unique : ∀ {kind kind' : Kind}, P kind → P kind' → kind = kind') : t.bare = t'.bare := by
  obtain ⟨kind, holds, isMark⟩ := h
  obtain ⟨kind', holds', isMark'⟩ := h'
  obtain rfl := unique holds holds'
  exact isMark.bare_eq isMark'

/-- Tokens for one operator in front are equal but for places. -/
lemma unary_token (h : t.Spells (Grammar.Unary · op)) (h' : t'.Spells (Grammar.Unary · op)) :
    t.bare = t'.bare := by
  refine h.bare_eq h' fun holds holds' => ?_
  cases holds <;> cases holds' <;> rfl

/-- Tokens for one operator that evaluates both sides are equal but for places. -/
lemma binary_token (h : t.Spells fun kind => ∃ level, Grammar.Binary level kind op')
    (h' : t'.Spells fun kind => ∃ level, Grammar.Binary level kind op') : t.bare = t'.bare := by
  refine h.bare_eq h' fun ⟨_, holds⟩ ⟨_, holds'⟩ => ?_
  cases holds <;> cases holds' <;> rfl

/-- Tokens for one operator that may leave its right side alone are equal but for places. -/
lemma logical_token (h : t.Spells fun kind => ∃ level, Grammar.Logical level kind op'')
    (h' : t'.Spells fun kind => ∃ level, Grammar.Logical level kind op'') : t.bare = t'.bare := by
  refine h.bare_eq h' fun ⟨_, holds⟩ ⟨_, holds'⟩ => ?_
  cases holds <;> cases holds' <;> rfl

end

namespace Expr

mutual

/-- The words of an expression have no spaces or parentheses in them. -/
lemma proper_form : ∀ e : Expr, e.Spelled → e.form.Proper
  | literal _, plain => Atom.Plain.proper plain
  | ident _, isName => Token.IsName.proper isName
  | group inner, spelled =>
    .cons (.of_all (by decide) (by decide)) (.cons (proper_form inner spelled) .nil)
  | assign _ value, ⟨isName, spelled⟩ =>
    .cons (.of_all (by decide) (by decide))
      (.cons isName.proper (.cons (proper_form value spelled) .nil))
  | unary op _ operand, ⟨_, spelled⟩ =>
    .cons op.proper_symbol (.cons (proper_form operand spelled) .nil)
  | binary op _ left right, ⟨_, first, second⟩ =>
    .cons op.proper_symbol (.cons (proper_form left first) (.cons (proper_form right second) .nil))
  | logical op _ left right, ⟨_, first, second⟩ =>
    .cons op.proper_symbol (.cons (proper_form left first) (.cons (proper_form right second) .nil))
  | call callee _ arguments, ⟨_, first, others⟩ =>
    .cons (.of_all (by decide) (by decide))
      (.cons (proper_form callee first) (proper_forms arguments others))

/-- Spelled expressions have proper S-expressions. -/
lemma proper_forms : ∀ es : List Expr, SpelledAll es → (Form.list (forms es)).Proper
  | [], _ => .nil
  | e :: rest, ⟨first, others⟩ => .cons (proper_form e first) (proper_forms rest others)

end

/-- The expression that a word stands for if it is not a number, without its place. -/
def ofWord (w : String) : Expr :=
  match Kind.ofWord w with
  | .kwTrue => literal (.boolean true)
  | .kwFalse => literal (.boolean false)
  | .kwNil => literal .nil
  | _ => ident ⟨.identifier, w, none, 0, ⟨0, 0⟩⟩

/-- How a word stands for an expression: as a number, or by starting with a letter. -/
inductive Reads : String → Expr → Prop where
  | number {x : Float} :
    x.isFinite = true →
    Reads (Decimal.Layout.listed.text x) (literal (.number x))
  | word {w : String} {e : Expr} :
    (∃ c cs, w.toList = c :: cs ∧ Lexicon.Letter c) → e.relabel .bare = ofWord w →
    Reads w e

variable {e e' : Expr} {w : String}

/-- What has no operands is a word. -/
lemma exists_reads (spelled : e.Spelled) (leaf : e.head = .leaf) :
    ∃ w, e.form = .word w ∧ Reads w e := by
  cases e with
  | literal atom =>
    refine ⟨_, rfl, ?_⟩
    cases atom with
    | number x => exact .number spelled
    | boolean b =>
      cases b with
      | true => exact .word ⟨'t', _, rfl, .inl (by decide)⟩ rfl
      | false => exact .word ⟨'f', _, rfl, .inl (by decide)⟩ rfl
    | nil => exact .word ⟨'n', _, rfl, .inl (by decide)⟩ rfl
    | string s => exact spelled.elim
  | ident name =>
    obtain ⟨none, ⟨c, cs, eq, letter, -⟩, free⟩ := (Token.IsName.rule spelled).name
    refine ⟨_, rfl, .word ⟨c, cs, eq, letter⟩ ?_⟩
    rw [String.ofList_toList] at free
    have bare : name.bare = ⟨.identifier, name.lexeme, .none, 0, ⟨0, 0⟩⟩ := by
      rw [Token.bare, spelled.kind, none]
    rw [ofWord, Lexicon.ofWord_of_not_mem free]
    exact congrArg ident bare
  | _ => cases leaf

/-- No number starts with a letter. -/
lemma number_ne_word {x : Float} (finite : x.isFinite = true)
    (letters : ∃ c cs, w.toList = c :: cs ∧ Lexicon.Letter c) :
    Decimal.Layout.listed.text x ≠ w := by
  rintro rfl
  obtain ⟨c, cs, eq, letter⟩ := letters
  obtain ⟨-, d, ds, eq', digit | sign⟩ := Decimal.chars_cases .listed finite
  all_goals
    rw [Decimal.Layout.toList_text, eq'] at eq
    obtain rfl := (List.cons.inj eq).1
    rw [← Piece.startsWord_iff] at letter
  · exact Piece.not_isDigit_of_startsWord letter digit
  · subst sign
    exact absurd letter (by decide)

/-- A word stands for one expression only. -/
lemma Reads.unique (h : Reads w e) (h' : Reads w e') : e.relabel .bare = e'.relabel .bare := by
  cases h with
  | @number x finite =>
    generalize same : Decimal.Layout.listed.text x = w at h'
    cases h' with
    | @number y finite' =>
      rw [Decimal.Layout.text_injective .listed finite finite' same]
    | word letters _ => exact absurd same (number_ne_word finite letters)
  | word letters eq =>
    cases h' with
    | number finite => exact absurd rfl (number_ne_word finite letters)
    | word _ eq' => rw [eq, eq']

/-- What has no operands can be told from its listing. -/
lemma bare_eq_of_leaf (spelled : e.Spelled) (spelled' : e'.Spelled) (leaf : e.head = .leaf)
    (same : e.form = e'.form) : e.relabel .bare = e'.relabel .bare := by
  obtain ⟨w, word, reads⟩ := exists_reads spelled leaf
  obtain ⟨w', word', reads'⟩ := exists_reads spelled' ((head_eq_of_form same).symm.trans leaf)
  rw [word, word', Form.word.injEq] at same
  exact reads.unique (same ▸ reads')

mutual

/-- Expressions that are listed alike differ in places only. -/
lemma bare_eq_of_form : ∀ e e' : Expr, e.Spelled → e'.Spelled → e.form = e'.form →
    e.relabel .bare = e'.relabel .bare
  | literal _, _, spelled, spelled', same => bare_eq_of_leaf spelled spelled' rfl same
  | ident _, _, spelled, spelled', same => bare_eq_of_leaf spelled spelled' rfl same
  | group inner, e', spelled, spelled', same => by
    have heads := head_eq_of_form same
    cases e' with
    | group inner' =>
      simp only [form, Form.list.injEq, List.cons.injEq, true_and, and_true] at same
      rw [relabel, relabel, bare_eq_of_form inner inner' spelled spelled' same]
    | _ => exact nomatch heads
  | assign name value, e', spelled, spelled', same => by
    have heads := head_eq_of_form same
    cases e' with
    | assign name' value' =>
      simp only [form, Form.list.injEq, List.cons.injEq, Form.word.injEq, true_and, and_true]
        at same
      have names : Relabelling.bare.name name = Relabelling.bare.name name' :=
        spelled.1.bare_eq spelled'.1 same.1
      rw [relabel, relabel, names, bare_eq_of_form value value' spelled.2 spelled'.2 same.2]
    | _ => exact nomatch heads
  | unary op token operand, e', spelled, spelled', same => by
    have heads := head_eq_of_form same
    cases e' with
    | unary op' token' operand' =>
      cases heads
      simp only [form, Form.list.injEq, List.cons.injEq, true_and, and_true] at same
      have tokens : Relabelling.bare.mark token = Relabelling.bare.mark token' :=
        unary_token spelled.1 spelled'.1
      rw [relabel, relabel, tokens, bare_eq_of_form operand operand' spelled.2 spelled'.2 same]
    | _ => exact nomatch heads
  | binary op token left right, e', spelled, spelled', same => by
    have heads := head_eq_of_form same
    cases e' with
    | binary op' token' left' right' =>
      cases heads
      simp only [form, Form.list.injEq, List.cons.injEq, true_and, and_true] at same
      have tokens : Relabelling.bare.mark token = Relabelling.bare.mark token' :=
        binary_token spelled.1 spelled'.1
      rw [relabel, relabel, tokens, bare_eq_of_form left left' spelled.2.1 spelled'.2.1 same.1,
        bare_eq_of_form right right' spelled.2.2 spelled'.2.2 same.2]
    | _ => exact nomatch heads
  | logical op token left right, e', spelled, spelled', same => by
    have heads := head_eq_of_form same
    cases e' with
    | logical op' token' left' right' =>
      cases heads
      simp only [form, Form.list.injEq, List.cons.injEq, true_and, and_true] at same
      have tokens : Relabelling.bare.mark token = Relabelling.bare.mark token' :=
        logical_token spelled.1 spelled'.1
      rw [relabel, relabel, tokens, bare_eq_of_form left left' spelled.2.1 spelled'.2.1 same.1,
        bare_eq_of_form right right' spelled.2.2 spelled'.2.2 same.2]
    | _ => exact nomatch heads
  | call callee paren arguments, e', spelled, spelled', same => by
    have heads := head_eq_of_form same
    cases e' with
    | call callee' paren' arguments' =>
      simp only [form, Form.list.injEq, List.cons.injEq, true_and] at same
      have parens : Relabelling.bare.mark paren = Relabelling.bare.mark paren' :=
        spelled.1.bare_eq spelled'.1
      rw [relabel, relabel, parens,
        bare_eq_of_form callee callee' spelled.2.1 spelled'.2.1 same.1,
        bare_eq_of_forms arguments arguments' spelled.2.2 spelled'.2.2 same.2]
    | _ => exact nomatch heads

/-- Spelled expressions with the same S-expressions are equal but for places. -/
lemma bare_eq_of_forms : ∀ es es' : List Expr, SpelledAll es → SpelledAll es' →
    forms es = forms es' → relabelAll .bare es = relabelAll .bare es'
  | [], [], _, _, _ => rfl
  | [], _ :: _, _, _, same => nomatch same
  | _ :: _, [], _, _, same => nomatch same
  | e :: rest, e' :: rest', spelled, spelled', same => by
    have split := List.cons.inj same
    rw [relabelAll, relabelAll, bare_eq_of_form e e' spelled.1 spelled'.1 split.1,
      bare_eq_of_forms rest rest' spelled.2 spelled'.2 split.2]

end

end Expr

namespace Stmt

/-- Names are proper words. -/
lemma proper_names {names : List Token} (areNames : ∀ name ∈ names, name.IsName) :
    (Form.list (names.map (.word ·.lexeme))).Proper := by
  refine .list fun f mem => ?_
  obtain ⟨name, inside, rfl⟩ := List.mem_map.mp mem
  exact (areNames name inside).proper

mutual

/-- The words of a statement have no spaces or parentheses in them. -/
lemma proper_form : ∀ s : Stmt, s.Spelled → s.form.Proper
  | var _ none, ⟨isName, _⟩ => .cons (.of_all (by decide) (by decide)) (.cons isName.proper .nil)
  | var _ (some e), ⟨isName, spelled, _⟩ =>
    .cons (.of_all (by decide) (by decide))
      (.cons isName.proper (.cons (e.proper_form spelled) .nil))
  | function _ _ body, ⟨isName, areNames, spelled⟩ =>
    .cons (.of_all (by decide) (by decide))
      (.cons isName.proper (.cons (proper_names areNames) (proper_forms body spelled)))
  | expression e, spelled | print e, spelled =>
    .cons (.of_all (by decide) (by decide)) (.cons (e.proper_form spelled) .nil)
  | block body, spelled => .cons (.of_all (by decide) (by decide)) (proper_forms body spelled)
  | ifThen condition thenBranch, ⟨first, second⟩ =>
    .cons (.of_all (by decide) (by decide))
      (.cons (condition.proper_form first) (.cons (proper_form thenBranch second) .nil))
  | ifElse condition thenBranch elseBranch, ⟨first, second, third⟩ =>
    .cons (.of_all (by decide) (by decide))
      (.cons (condition.proper_form first)
        (.cons (proper_form thenBranch second) (.cons (proper_form elseBranch third) .nil)))
  | loop condition none body, ⟨_, first, second⟩ =>
    .cons (.of_all (by decide) (by decide))
      (.cons (condition.proper_form first) (.cons (proper_form body second) .nil))
  | ret _ none, _ => .cons (.of_all (by decide) (by decide)) .nil
  | ret _ (some e), ⟨_, spelled, _⟩ =>
    .cons (.of_all (by decide) (by decide)) (.cons (e.proper_form spelled) .nil)

/-- Spelled statements have proper S-expressions. -/
lemma proper_forms : ∀ ss : List Stmt, SpelledAll ss → (Form.list (forms ss)).Proper
  | [], _ => .nil
  | s :: rest, ⟨first, others⟩ => .cons (proper_form s first) (proper_forms rest others)

end

/-- Optional expressions that are listed alike differ in places only. -/
lemma bare_eq_of_toList {e? f? : Option Expr} (spelled : Expr.SpelledAll e?.toList)
    (spelled' : Expr.SpelledAll f?.toList)
    (same : Expr.forms e?.toList = Expr.forms f?.toList) :
    e?.map (Expr.relabel .bare) = f?.map (Expr.relabel .bare) := by
  cases e? with
  | none =>
    cases f? with
    | none => rfl
    | some f => exact nomatch same
  | some e =>
    cases f? with
    | none => exact nomatch same
    | some f =>
      exact congrArg some (Expr.bare_eq_of_form e f spelled.1 spelled'.1 (List.cons.inj same).1)

/-- Names that are listed alike differ in places only. -/
lemma names_bare_eq {names names' : List Token} (areNames : ∀ name ∈ names, name.IsName)
    (areNames' : ∀ name ∈ names', name.IsName)
    (same : names.map (Form.word ·.lexeme) = names'.map (Form.word ·.lexeme)) :
    names.map Token.bare = names'.map Token.bare := by
  induction names generalizing names' with
  | nil =>
    rw [List.map_nil, eq_comm, List.map_eq_nil_iff] at same
    rw [same]
  | cons name others ih =>
    obtain ⟨isName, areOthers⟩ := List.forall_mem_cons.mp areNames
    cases names' with
    | nil => exact nomatch same
    | cons name' others' =>
      obtain ⟨isName', areOthers'⟩ := List.forall_mem_cons.mp areNames'
      obtain ⟨first, more⟩ := List.cons.inj same
      rw [List.map_cons, List.map_cons, isName.bare_eq isName' (Form.word.inj first),
        ih areOthers areOthers' more]

mutual

/-- Statements that are listed alike differ in places only. -/
lemma bare_eq_of_form : ∀ s s' : Stmt, s.Spelled → s'.Spelled → s.form = s'.form →
    s.relabel .bare = s'.relabel .bare
  | var name initializer, s', spelled, spelled', same => by
    have heads := head_eq_of_form same
    cases s' with
    | var name' initializer' =>
      simp only [form_var, Form.list.injEq, List.cons.injEq, Form.word.injEq, true_and] at same
      have names : Relabelling.bare.name name = Relabelling.bare.name name' :=
        spelled.1.bare_eq spelled'.1 same.1
      rw [relabel, relabel, names, bare_eq_of_toList spelled.2 spelled'.2 same.2]
    | _ => exact nomatch heads
  | function name parameters body, s', spelled, spelled', same => by
    have heads := head_eq_of_form same
    cases s' with
    | function name' parameters' body' =>
      simp only [form, Form.list.injEq, List.cons.injEq, Form.word.injEq, true_and] at same
      have names : Relabelling.bare.name name = Relabelling.bare.name name' :=
        spelled.1.bare_eq spelled'.1 same.1
      have parameters : parameters.map Relabelling.bare.name =
          parameters'.map Relabelling.bare.name :=
        names_bare_eq spelled.2.1 spelled'.2.1 same.2.1
      rw [relabel, relabel, names, parameters,
        bare_eq_of_forms body body' spelled.2.2 spelled'.2.2 same.2.2]
    | _ => exact nomatch heads
  | expression e, s', spelled, spelled', same => by
    have heads := head_eq_of_form same
    cases s' with
    | expression e' =>
      simp only [form, Form.list.injEq, List.cons.injEq, true_and, and_true] at same
      rw [relabel, relabel, e.bare_eq_of_form e' spelled spelled' same]
    | _ => exact nomatch heads
  | print e, s', spelled, spelled', same => by
    have heads := head_eq_of_form same
    cases s' with
    | print e' =>
      simp only [form, Form.list.injEq, List.cons.injEq, true_and, and_true] at same
      rw [relabel, relabel, e.bare_eq_of_form e' spelled spelled' same]
    | _ => exact nomatch heads
  | block body, s', spelled, spelled', same => by
    have heads := head_eq_of_form same
    cases s' with
    | block body' =>
      simp only [form, Form.list.injEq, List.cons.injEq, true_and] at same
      rw [relabel, relabel, bare_eq_of_forms body body' spelled spelled' same]
    | _ => exact nomatch heads
  | ifThen condition thenBranch, s', spelled, spelled', same => by
    have heads := head_eq_of_form same
    cases s' with
    | ifThen condition' thenBranch' =>
      simp only [form, Form.list.injEq, List.cons.injEq, true_and, and_true] at same
      rw [relabel, relabel, condition.bare_eq_of_form condition' spelled.1 spelled'.1 same.1,
        bare_eq_of_form thenBranch thenBranch' spelled.2 spelled'.2 same.2]
    | ifElse =>
      simp only [form, Form.list.injEq, List.cons.injEq, reduceCtorEq, and_false] at same
    | _ => exact nomatch heads
  | ifElse condition thenBranch elseBranch, s', spelled, spelled', same => by
    have heads := head_eq_of_form same
    cases s' with
    | ifElse condition' thenBranch' elseBranch' =>
      simp only [form, Form.list.injEq, List.cons.injEq, true_and, and_true] at same
      rw [relabel, relabel, condition.bare_eq_of_form condition' spelled.1 spelled'.1 same.1,
        bare_eq_of_form thenBranch thenBranch' spelled.2.1 spelled'.2.1 same.2.1,
        bare_eq_of_form elseBranch elseBranch' spelled.2.2 spelled'.2.2 same.2.2]
    | ifThen =>
      simp only [form, Form.list.injEq, List.cons.injEq, reduceCtorEq, and_false] at same
    | _ => exact nomatch heads
  | loop condition step body, s', spelled, spelled', same => by
    have heads := head_eq_of_form same
    cases s' with
    | loop condition' step' body' =>
      obtain ⟨rfl, first, second⟩ := spelled
      obtain ⟨rfl, first', second'⟩ := spelled'
      simp only [form, Form.list.injEq, List.cons.injEq, true_and, and_true] at same
      rw [relabel, relabel, condition.bare_eq_of_form condition' first first' same.1,
        bare_eq_of_form body body' second second' same.2]
    | _ => exact nomatch heads
  | ret keyword value, s', spelled, spelled', same => by
    have heads := head_eq_of_form same
    cases s' with
    | ret keyword' value' =>
      simp only [form_ret, Form.list.injEq, List.cons.injEq, true_and] at same
      have keywords : Relabelling.bare.mark keyword = Relabelling.bare.mark keyword' :=
        spelled.1.bare_eq spelled'.1
      rw [relabel, relabel, keywords, bare_eq_of_toList spelled.2 spelled'.2 same]
    | _ => exact nomatch heads

/-- Spelled statements with the same S-expressions are equal but for places. -/
lemma bare_eq_of_forms : ∀ ss ss' : List Stmt, SpelledAll ss → SpelledAll ss' →
    forms ss = forms ss' → relabelAll .bare ss = relabelAll .bare ss'
  | [], [], _, _, _ => rfl
  | [], _ :: _, _, _, same => nomatch same
  | _ :: _, [], _, _, same => nomatch same
  | s :: rest, s' :: rest', spelled, spelled', same => by
    have split := List.cons.inj same
    rw [relabelAll, relabelAll, bare_eq_of_form s s' spelled.1 spelled'.1 split.1,
      bare_eq_of_forms rest rest' spelled.2 spelled'.2 split.2]

end

end Stmt

end Lox
