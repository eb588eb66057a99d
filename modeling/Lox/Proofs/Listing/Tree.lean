import Lox.Proofs.Decimal.Spelling
import Lox.Proofs.Grammar.Basic
import Lox.Proofs.Listing.Form
import Lox.Proofs.Scan.Lexemes

/-!
# Trees by their listings

The listing of a tree is an S-expression. Its first word and the number of its operands tell what
kind of tree it is; names that look like such words do no harm, for they stand elsewhere. Words that
stand for themselves are told from each other by their characters.
-/

namespace Lox

namespace Expr

mutual

/-- The S-expression of an expression. -/
def form : Expr → Form
  | literal atom => .word atom.sexpr
  | ident name => .word name.lexeme
  | group inner => .list [.word "group", inner.form]
  | assign name value => .list [.word "=", .word name.lexeme, value.form]
  | unary op _ operand => .list [.word op.symbol, operand.form]
  | binary op _ left right => .list [.word op.symbol, left.form, right.form]
  | logical op _ left right => .list [.word op.symbol, left.form, right.form]
  | call callee _ arguments => .list (.word "call" :: callee.form :: forms arguments)

/-- The S-expressions of expressions. -/
def forms : List Expr → List Form
  | [] => []
  | e :: rest => e.form :: forms rest

end

mutual

/-- An expression is listed as its S-expression. -/
lemma text_form : ∀ e : Expr, e.form.text = e.sexpr
  | literal atom => rfl
  | ident name => rfl
  | group inner => by
    simp only [form, Form.text, Form.texts, sexpr, text_form inner]
  | assign name value => by
    simp only [form, Form.text, Form.texts, sexpr, text_form value]
  | unary op token operand => by
    simp only [form, Form.text, Form.texts, sexpr, text_form operand]
  | binary op token left right => by
    simp only [form, Form.text, Form.texts, sexpr, text_form left, text_form right]
  | logical op token left right => by
    simp only [form, Form.text, Form.texts, sexpr, text_form left, text_form right]
  | call callee paren arguments => by
    simp only [form, Form.text, Form.texts, sexpr, text_form callee, texts_forms arguments]

/-- The texts of the S-expressions are the listed expressions. -/
lemma texts_forms : ∀ es : List Expr, Form.texts (forms es) = sexprs es
  | [] => rfl
  | e :: rest => by
    simp only [forms, Form.texts, sexprs, text_form e, texts_forms rest]

end

mutual

/-- A listing does not show places. -/
lemma form_bare : ∀ e : Expr, (e.relabel .bare).form = e.form
  | literal _ => rfl
  | ident _ => rfl
  | group inner => by
    rw [relabel, form, form_bare inner, form]
  | assign name value => by
    rw [relabel, form, form_bare value, form]
    rfl
  | unary op token operand => by
    rw [relabel, form, form_bare operand, form]
  | binary op token left right => by
    rw [relabel, form, form_bare left, form_bare right, form]
  | logical op token left right => by
    rw [relabel, form, form_bare left, form_bare right, form]
  | call callee paren arguments => by
    rw [relabel, form, form_bare callee, forms_bare arguments, form]

/-- Places of tokens are not in the S-expressions. -/
lemma forms_bare : ∀ es : List Expr, forms (relabelAll .bare es) = forms es
  | [] => rfl
  | e :: rest => by
    rw [relabelAll, forms, form_bare e, forms_bare rest, forms]

end

/-- What an expression is, apart from its operands. -/
inductive Head where
  | leaf
  | group
  | assign
  | unary (op : PrefixOp)
  | binary (op : BinaryOp)
  | logical (op : LogicalOp)
  | call
deriving DecidableEq

/-- What an expression is, apart from its operands. -/
def head : Expr → Head
  | literal _ | ident _ => .leaf
  | group _ => .group
  | assign _ _ => .assign
  | unary op _ _ => .unary op
  | binary op _ _ _ => .binary op
  | logical op _ _ _ => .logical op
  | call _ _ _ => .call

/-- What stands for a first word, given how many operands follow it. -/
def Head.ofWord (operands : Nat) : String → Head
  | "group" => group
  | "=" => assign
  | "!" => unary .not
  | "-" => if operands = 1 then unary .negate else binary .subtract
  | "*" => binary .multiply
  | "/" => binary .divide
  | "+" => binary .add
  | "<" => binary .less
  | "<=" => binary .lessEqual
  | ">" => binary .greater
  | ">=" => binary .greaterEqual
  | "==" => binary .equal
  | "!=" => binary .notEqual
  | "and" => logical .and
  | "or" => logical .or
  | "call" => call
  | _ => leaf

/-- What the expression with an S-expression is. -/
def Head.ofForm : Form → Head
  | .list (.word w :: operands) => ofWord operands.length w
  | _ => leaf

/-- The first word and the number of operands tell what an expression is. -/
lemma head_eq (e : Expr) : e.head = Head.ofForm e.form := by
  cases e with
  | unary op => cases op <;> rfl
  | binary op => cases op <;> rfl
  | logical op => cases op <;> rfl
  | _ => rfl

/-- Expressions with the same S-expression are the same apart from their operands. -/
lemma head_eq_of_form {e e' : Expr} (same : e.form = e'.form) : e.head = e'.head := by
  rw [head_eq, head_eq, same]

end Expr

namespace Stmt

mutual

/-- The S-expression of a statement. -/
def form : Stmt → Form
  | var name none => .list [.word "var", .word name.lexeme]
  | var name (some e) => .list [.word "var", .word name.lexeme, e.form]
  | function name parameters body =>
    .list (.word "fun" :: .word name.lexeme :: .list (parameters.map (.word ·.lexeme)) ::
      forms body)
  | expression e => .list [.word "expr", e.form]
  | print e => .list [.word "print", e.form]
  | block body => .list (.word "block" :: forms body)
  | ifThen condition thenBranch => .list [.word "if", condition.form, thenBranch.form]
  | ifElse condition thenBranch elseBranch =>
    .list [.word "if", condition.form, thenBranch.form, elseBranch.form]
  | loop condition none body => .list [.word "while", condition.form, body.form]
  | loop condition (some step) body =>
    .list [.word "while", condition.form,
      .list [.word "block", body.form, .list [.word "expr", step.form]]]
  | ret _ none => .list [.word "return"]
  | ret _ (some e) => .list [.word "return", e.form]

/-- The S-expressions of statements. -/
def forms : List Stmt → List Form
  | [] => []
  | s :: rest => s.form :: forms rest

end

/-- The texts of names are the names. -/
lemma texts_names (names : List Token) :
    Form.texts (names.map (.word ·.lexeme)) = names.map (·.lexeme) := by
  rw [Form.texts_eq_map, List.map_map]
  rfl

mutual

/-- A statement is listed as its S-expression. -/
lemma text_form : ∀ s : Stmt, s.form.text = s.sexpr
  | var name none => rfl
  | var name (some e) => by
    simp only [form, Form.text, Form.texts, sexpr, e.text_form]
  | function name parameters body => by
    simp only [form, Form.text, Form.texts, sexpr, texts_names, texts_forms body]
  | expression e => by
    simp only [form, Form.text, Form.texts, sexpr, e.text_form]
  | print e => by
    simp only [form, Form.text, Form.texts, sexpr, e.text_form]
  | block body => by
    simp only [form, Form.text, Form.texts, sexpr, texts_forms body]
  | ifThen condition thenBranch => by
    simp only [form, Form.text, Form.texts, sexpr, condition.text_form, text_form thenBranch]
  | ifElse condition thenBranch elseBranch => by
    simp only [form, Form.text, Form.texts, sexpr, condition.text_form, text_form thenBranch,
      text_form elseBranch]
  | loop condition none body => by
    simp only [form, Form.text, Form.texts, sexpr, condition.text_form, text_form body]
  | loop condition (some step) body => by
    simp only [form, Form.text, Form.texts, sexpr, condition.text_form, text_form body,
      step.text_form]
  | ret keyword none => rfl
  | ret keyword (some e) => by
    simp only [form, Form.text, Form.texts, sexpr, e.text_form]

/-- The texts of the S-expressions are the listed statements. -/
lemma texts_forms : ∀ ss : List Stmt, Form.texts (forms ss) = sexprs ss
  | [] => rfl
  | s :: rest => by
    simp only [forms, Form.texts, sexprs, text_form s, texts_forms rest]

end

mutual

/-- A listing does not show places. -/
lemma form_bare : ∀ s : Stmt, (s.relabel .bare).form = s.form
  | var name none => rfl
  | var name (some e) => by
    rw [relabel, Option.map_some, form, e.form_bare, form]
    rfl
  | function name parameters body => by
    rw [relabel, form, forms_bare body, form, List.map_map]
    rfl
  | expression e | print e => by
    rw [relabel, form, e.form_bare, form]
  | block body => by
    rw [relabel, form, forms_bare body, form]
  | ifThen condition thenBranch => by
    rw [relabel, form, condition.form_bare, form_bare thenBranch, form]
  | ifElse condition thenBranch elseBranch => by
    rw [relabel, form, condition.form_bare, form_bare thenBranch, form_bare elseBranch, form]
  | loop condition none body => by
    rw [relabel, Option.map_none, form, condition.form_bare, form_bare body, form]
  | loop condition (some step) body => by
    rw [relabel, Option.map_some, form, condition.form_bare, form_bare body, step.form_bare, form]
  | ret keyword none => rfl
  | ret keyword (some e) => by
    rw [relabel, Option.map_some, form, e.form_bare, form]

/-- Places of tokens are not in the S-expressions. -/
lemma forms_bare : ∀ ss : List Stmt, forms (relabelAll .bare ss) = forms ss
  | [] => rfl
  | s :: rest => by
    rw [relabelAll, forms, form_bare s, forms_bare rest, forms]

end

/-- What a statement is, apart from its parts. Whether there is an `else` is told by their number. -/
inductive Head where
  | var
  | function
  | expression
  | print
  | block
  | branch
  | loop
  | ret
deriving DecidableEq

/-- What a statement is, apart from its parts. -/
def head : Stmt → Head
  | var _ _ => .var
  | function _ _ _ => .function
  | expression _ => .expression
  | print _ => .print
  | block _ => .block
  | ifThen _ _ | ifElse _ _ _ => .branch
  | loop _ _ _ => .loop
  | ret _ _ => .ret

/-- What stands for a first word. -/
def Head.ofWord? : String → Option Head
  | "var" => some var
  | "fun" => some function
  | "expr" => some expression
  | "print" => some print
  | "block" => some block
  | "if" => some branch
  | "while" => some loop
  | "return" => some ret
  | _ => none

/-- What the statement with an S-expression is. -/
def Head.ofForm? : Form → Option Head
  | .list (.word w :: _) => ofWord? w
  | _ => none

/-- The first word tells what a statement is. -/
lemma head_eq (s : Stmt) : some s.head = Head.ofForm? s.form := by
  cases s with
  | var _ initializer => cases initializer <;> rfl
  | loop _ step _ => cases step <;> rfl
  | ret _ value => cases value <;> rfl
  | _ => rfl

/-- Statements with the same S-expression are the same apart from their parts. -/
lemma head_eq_of_form {s s' : Stmt} (same : s.form = s'.form) : s.head = s'.head := by
  rw [← Option.some.injEq, head_eq, head_eq, same]

/-- The S-expression of a variable declaration ends with the initializer, if there is one. -/
lemma form_var (name : Token) (initializer : Option Expr) :
    (var name initializer).form =
      .list (.word "var" :: .word name.lexeme :: Expr.forms initializer.toList) := by
  cases initializer <;> rfl

/-- The S-expression of a `return` ends with the value, if there is one. -/
lemma form_ret (keyword : Token) (value : Option Expr) :
    (ret keyword value).form = .list (.word "return" :: Expr.forms value.toList) := by
  cases value <;> rfl

end Stmt

end Lox
