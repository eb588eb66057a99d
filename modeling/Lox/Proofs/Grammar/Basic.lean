import Lox.Syntax.Tree

/-!
# The grammar

Which lists of tokens the rules of the grammar derive, and with which trees. The rules are stated
without regard to how tokens are read: operators are listed level by level, chains of one level lean
to the left because their rule recurs there, and only a bare name can be assigned to.

Statements are told apart by how they end, so that an `else` belongs to the nearest `if` that can
take it: a statement in front of an `else` is closed, that is, it does not end in an `if` that lacks
one. The rules leave open which tree stands for a `for` loop.
-/

namespace Lox

namespace Grammar

/-- The levels of expressions, from the loosest operators to the tightest. -/
inductive Level where
  | assignment | or | and | equality | comparison | term | factor | unary | call | primary

/-- The next tighter level. Nothing is tighter than a primary expression. -/
def Level.tighter : Level → Level
  | assignment => or
  | or => and
  | and => equality
  | equality => comparison
  | comparison => term
  | term => factor
  | factor => unary
  | unary => call
  | call | primary => primary

/-- The literals, with the tokens that stand for them. -/
inductive Literal : Token → Atom → Prop where
  | number {token : Token} {x : Float} :
    token.kind = .number → token.literal = some (.number x) → Literal token (.number x)
  | string {token : Token} {s : String} :
    token.kind = .string → token.literal = some (.string s) → Literal token (.string s)
  | true {token : Token} :
    token.kind = .kwTrue → Literal token (.boolean true)
  | false {token : Token} :
    token.kind = .kwFalse → Literal token (.boolean false)
  | nil {token : Token} :
    token.kind = .kwNil → Literal token .nil

/-- The operators of unary expressions. -/
inductive Unary : Kind → PrefixOp → Prop where
  | not : Unary .bang .not
  | negate : Unary .minus .negate

/-- The operators of each level that are always evaluated on both sides. -/
inductive Binary : Level → Kind → BinaryOp → Prop where
  | equal : Binary .equality .equalEqual .equal
  | notEqual : Binary .equality .bangEqual .notEqual
  | less : Binary .comparison .less .less
  | lessEqual : Binary .comparison .lessEqual .lessEqual
  | greater : Binary .comparison .greater .greater
  | greaterEqual : Binary .comparison .greaterEqual .greaterEqual
  | add : Binary .term .plus .add
  | subtract : Binary .term .minus .subtract
  | multiply : Binary .factor .star .multiply
  | divide : Binary .factor .slash .divide

/-- The operators of each level that may leave their right side alone. -/
inductive Logical : Level → Kind → LogicalOp → Prop where
  | or : Logical .or .kwOr .or
  | and : Logical .and .kwAnd .and

mutual

/-- The expressions of each level. -/
inductive Expression : Level → List Token → Expr → Prop where
  | literal {token : Token} {atom : Atom} :
    Literal token atom →
    Expression .primary [token] (.literal atom)
  | name {token : Token} :
    token.kind = .identifier →
    Expression .primary [token] (.ident token)
  | group {start stop : Token} {ts : List Token} {e : Expr} :
    start.kind = .leftParen → Expression .assignment ts e → stop.kind = .rightParen →
    Expression .primary (start :: (ts ++ [stop])) (.group e)
  | callNone {start stop : Token} {ts : List Token} {callee : Expr} :
    Expression .call ts callee → start.kind = .leftParen → stop.kind = .rightParen →
    Expression .call (ts ++ [start, stop]) (.call callee stop [])
  | callSome {start stop : Token} {ts us : List Token} {callee : Expr} {arguments : List Expr} :
    Expression .call ts callee → start.kind = .leftParen → Arguments us arguments →
    arguments.length ≤ 255 → stop.kind = .rightParen →
    Expression .call (ts ++ start :: (us ++ [stop])) (.call callee stop arguments)
  | unary {token : Token} {op : PrefixOp} {ts : List Token} {e : Expr} :
    Unary token.kind op → Expression .unary ts e →
    Expression .unary (token :: ts) (.unary op token e)
  | binary {level : Level} {token : Token} {op : BinaryOp} {ts us : List Token} {e f : Expr} :
    Expression level ts e → Binary level token.kind op → Expression level.tighter us f →
    Expression level (ts ++ token :: us) (.binary op token e f)
  | logical {level : Level} {token : Token} {op : LogicalOp} {ts us : List Token} {e f : Expr} :
    Expression level ts e → Logical level token.kind op → Expression level.tighter us f →
    Expression level (ts ++ token :: us) (.logical op token e f)
  | assign {name token : Token} {ts : List Token} {e : Expr} :
    name.kind = .identifier → token.kind = .equal → Expression .assignment ts e →
    Expression .assignment (name :: token :: ts) (.assign name e)
  | tighter {level : Level} {ts : List Token} {e : Expr} :
    Expression level.tighter ts e →
    Expression level ts e

/-- One or more expressions with commas between them. -/
inductive Arguments : List Token → List Expr → Prop where
  | last {ts : List Token} {e : Expr} :
    Expression .assignment ts e →
    Arguments ts [e]
  | more {ts us : List Token} {comma : Token} {e : Expr} {es : List Expr} :
    Expression .assignment ts e → comma.kind = .comma → Arguments us es →
    Arguments (ts ++ comma :: us) (e :: es)

end

/-- An expression or nothing. -/
inductive Optional : List Token → Option Expr → Prop where
  | none :
    Optional [] none
  | some {ts : List Token} {e : Expr} :
    Expression .assignment ts e →
    Optional ts (some e)

/-- An expression between parentheses. -/
inductive Condition : List Token → Expr → Prop where
  | mk {start stop : Token} {ts : List Token} {e : Expr} :
    start.kind = .leftParen → Expression .assignment ts e → stop.kind = .rightParen →
    Condition (start :: (ts ++ [stop])) e

/-- What follows the keyword of a variable declaration. -/
inductive Variable : List Token → Stmt → Prop where
  | none {name stop : Token} :
    name.kind = .identifier → stop.kind = .semicolon →
    Variable [name, stop] (.var name none)
  | some {name token stop : Token} {ts : List Token} {e : Expr} :
    name.kind = .identifier → token.kind = .equal → Expression .assignment ts e →
    stop.kind = .semicolon →
    Variable (name :: token :: (ts ++ [stop])) (.var name (some e))

/-- One or more names with commas between them. -/
inductive Names : List Token → List Token → Prop where
  | last {name : Token} :
    name.kind = .identifier →
    Names [name] [name]
  | more {name comma : Token} {ts names : List Token} :
    name.kind = .identifier → comma.kind = .comma → Names ts names →
    Names (name :: comma :: ts) (name :: names)

/-- The parameters of a function, of which there may be none. -/
inductive Parameters : List Token → List Token → Prop where
  | none :
    Parameters [] []
  | some {ts names : List Token} :
    Names ts names → names.length ≤ 255 →
    Parameters ts names

/-- What stands first between the parentheses of a `for` loop. -/
inductive Initializer : List Token → Option Stmt → Prop where
  | none {stop : Token} :
    stop.kind = .semicolon →
    Initializer [stop] none
  | var {keyword : Token} {ts : List Token} {s : Stmt} :
    keyword.kind = .kwVar → Variable ts s →
    Initializer (keyword :: ts) (some s)
  | expression {stop : Token} {ts : List Token} {e : Expr} :
    Expression .assignment ts e → stop.kind = .semicolon →
    Initializer (ts ++ [stop]) (some (.expression e))

/-- The parts of a `for` loop with their parentheses. -/
inductive Clauses : List Token → ForClauses → Prop where
  | mk {start stop semicolon : Token} {ts us vs : List Token} {initializer : Option Stmt}
    {condition increment : Option Expr} :
    start.kind = .leftParen → Initializer ts initializer → Optional us condition →
    semicolon.kind = .semicolon → Optional vs increment → stop.kind = .rightParen →
    Clauses (start :: (ts ++ (us ++ semicolon :: (vs ++ [stop]))))
      ⟨initializer, condition, increment⟩

/-- How a statement ends. -/
inductive Ending where
  | closed
  /-- In an `if` that could take an `else`. -/
  | pending

section

variable (forLoop : ForClauses → Stmt → Stmt)

mutual

/-- The statements that are not declarations. -/
inductive Statement : Ending → List Token → Stmt → Prop where
  | expression {stop : Token} {ts : List Token} {e : Expr} :
    Expression .assignment ts e → stop.kind = .semicolon →
    Statement .closed (ts ++ [stop]) (.expression e)
  | print {keyword stop : Token} {ts : List Token} {e : Expr} :
    keyword.kind = .kwPrint → Expression .assignment ts e → stop.kind = .semicolon →
    Statement .closed (keyword :: (ts ++ [stop])) (.print e)
  | ret {keyword stop : Token} {ts : List Token} {value : Option Expr} :
    keyword.kind = .kwReturn → Optional ts value → stop.kind = .semicolon →
    Statement .closed (keyword :: (ts ++ [stop])) (.ret keyword value)
  | block {start : Token} {ts : List Token} {body : List Stmt} :
    start.kind = .leftBrace → Block ts body →
    Statement .closed (start :: ts) (.block body)
  | ifThen {keyword : Token} {ts us : List Token} {condition : Expr} {ending : Ending} {s : Stmt} :
    keyword.kind = .kwIf → Condition ts condition → Statement ending us s →
    Statement .pending (keyword :: (ts ++ us)) (.ifThen condition s)
  | ifElse {keyword other : Token} {ts us vs : List Token} {condition : Expr} {ending : Ending}
    {s t : Stmt} :
    keyword.kind = .kwIf → Condition ts condition → Statement .closed us s →
    other.kind = .kwElse → Statement ending vs t →
    Statement ending (keyword :: (ts ++ (us ++ other :: vs))) (.ifElse condition s t)
  | whileLoop {keyword : Token} {ts us : List Token} {condition : Expr} {ending : Ending}
    {s : Stmt} :
    keyword.kind = .kwWhile → Condition ts condition → Statement ending us s →
    Statement ending (keyword :: (ts ++ us)) (.loop condition none s)
  | forLoop {keyword : Token} {ts us : List Token} {clauses : ForClauses} {ending : Ending}
    {s : Stmt} :
    keyword.kind = .kwFor → Clauses ts clauses → Statement ending us s →
    Statement ending (keyword :: (ts ++ us)) (forLoop clauses s)

/-- The declarations, and the statements among them. -/
inductive Declaration : List Token → Stmt → Prop where
  | var {keyword : Token} {ts : List Token} {s : Stmt} :
    keyword.kind = .kwVar → Variable ts s →
    Declaration (keyword :: ts) s
  | function {keyword name start stop brace : Token} {ts us : List Token} {parameters : List Token}
    {body : List Stmt} :
    keyword.kind = .kwFun → name.kind = .identifier → start.kind = .leftParen →
    Parameters ts parameters → stop.kind = .rightParen → brace.kind = .leftBrace → Block us body →
    Declaration (keyword :: name :: start :: (ts ++ stop :: brace :: us))
      (.function name parameters body)
  | statement {ending : Ending} {ts : List Token} {s : Stmt} :
    Statement ending ts s →
    Declaration ts s

/-- Declarations and the brace behind them. -/
inductive Block : List Token → List Stmt → Prop where
  | nil {stop : Token} :
    stop.kind = .rightBrace →
    Block [stop] []
  | cons {ts us : List Token} {s : Stmt} {ss : List Stmt} :
    Declaration ts s → Block us ss →
    Block (ts ++ us) (s :: ss)

end

/-- Programs: declarations one after another. -/
inductive Declarations : List Token → Program → Prop where
  | nil :
    Declarations [] []
  | cons {ts us : List Token} {s : Stmt} {program : Program} :
    Declaration forLoop ts s → Declarations us program →
    Declarations (ts ++ us) (s :: program)

end

end Grammar

end Lox
