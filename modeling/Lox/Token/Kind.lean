/-!
# Token kinds

The kinds of tokens with their names, the keyword table, and the kinds that begin a statement.
-/

namespace Lox

/-- What a token is. The kinds that begin with `kw` are the keywords. -/
inductive Kind where
  | leftParen | rightParen | leftBrace | rightBrace
  | comma | dot | minus | plus | semicolon | star
  | bang | bangEqual | equal | equalEqual | less | lessEqual | greater | greaterEqual | slash
  | number | string | identifier
  | kwAnd | kwClass | kwElse | kwFalse | kwFor | kwFun | kwIf | kwNil
  | kwOr | kwPrint | kwReturn | kwSuper | kwThis | kwTrue | kwVar | kwWhile
  | eof
deriving DecidableEq

namespace Kind

/-- Every kind, in the order of declaration. -/
def all : List Kind :=
  [leftParen, rightParen, leftBrace, rightBrace, comma, dot, minus, plus, semicolon, star, bang,
    bangEqual, equal, equalEqual, less, lessEqual, greater, greaterEqual, slash, number, string,
    identifier, kwAnd, kwClass, kwElse, kwFalse, kwFor, kwFun, kwIf, kwNil, kwOr, kwPrint, kwReturn,
    kwSuper, kwThis, kwTrue, kwVar, kwWhile, eof]

/-- The list of all kinds misses none. -/
theorem mem_all (k : Kind) : k ∈ all := by
  cases k <;> decide

/-- The keywords with their kinds. -/
def keywords : List (String × Kind) :=
  [("and", kwAnd), ("class", kwClass), ("else", kwElse), ("false", kwFalse), ("for", kwFor),
    ("fun", kwFun), ("if", kwIf), ("nil", kwNil), ("or", kwOr), ("print", kwPrint),
    ("return", kwReturn), ("super", kwSuper), ("this", kwThis), ("true", kwTrue), ("var", kwVar),
    ("while", kwWhile)]

/-- The kind of a word: a keyword, or else an identifier. -/
def ofWord (word : String) : Kind :=
  (keywords.lookup word).getD identifier

/-- The name of a kind in token lists and messages. -/
def name : Kind → String
  | leftParen => "LEFT_PAREN"
  | rightParen => "RIGHT_PAREN"
  | leftBrace => "LEFT_BRACE"
  | rightBrace => "RIGHT_BRACE"
  | comma => "COMMA"
  | dot => "DOT"
  | minus => "MINUS"
  | plus => "PLUS"
  | semicolon => "SEMICOLON"
  | star => "STAR"
  | bang => "BANG"
  | bangEqual => "BANG_EQUAL"
  | equal => "EQUAL"
  | equalEqual => "EQUAL_EQUAL"
  | less => "LESS"
  | lessEqual => "LESS_EQUAL"
  | greater => "GREATER"
  | greaterEqual => "GREATER_EQUAL"
  | slash => "SLASH"
  | number => "NUMBER"
  | string => "STRING"
  | identifier => "IDENTIFIER"
  | kwAnd => "AND"
  | kwClass => "CLASS"
  | kwElse => "ELSE"
  | kwFalse => "FALSE"
  | kwFor => "FOR"
  | kwFun => "FUN"
  | kwIf => "IF"
  | kwNil => "NIL"
  | kwOr => "OR"
  | kwPrint => "PRINT"
  | kwReturn => "RETURN"
  | kwSuper => "SUPER"
  | kwThis => "THIS"
  | kwTrue => "TRUE"
  | kwVar => "VAR"
  | kwWhile => "WHILE"
  | eof => "EOF"

/-- The kind with a given name. -/
def ofName? (name : String) : Option Kind :=
  all.find? (·.name = name)

/-- The name of a kind in record notation. -/
def recordName : Kind → String
  | leftParen => "LeftParenthesis"
  | rightParen => "RightParenthesis"
  | leftBrace => "LeftBrace"
  | rightBrace => "RightBrace"
  | comma => "Comma"
  | dot => "Dot"
  | minus => "Minus"
  | plus => "Plus"
  | semicolon => "Semicolon"
  | star => "Star"
  | bang => "Bang"
  | bangEqual => "BangEqual"
  | equal => "Equal"
  | equalEqual => "EqualEqual"
  | less => "LessThan"
  | lessEqual => "LessThanEqual"
  | greater => "GreaterThan"
  | greaterEqual => "GreaterThanEqual"
  | slash => "Slash"
  | number => "NumericLiteral"
  | string => "StringLiteral"
  | identifier => "Ident"
  | kwAnd => "KeywordAnd"
  | kwClass => "KeywordClass"
  | kwElse => "KeywordElse"
  | kwFalse => "KeywordFalse"
  | kwFor => "KeywordFor"
  | kwFun => "KeywordFun"
  | kwIf => "KeywordIf"
  | kwNil => "KeywordNil"
  | kwOr => "KeywordOr"
  | kwPrint => "KeywordPrint"
  | kwReturn => "KeywordReturn"
  | kwSuper => "KeywordSuper"
  | kwThis => "KeywordThis"
  | kwTrue => "KeywordTrue"
  | kwVar => "KeywordVar"
  | kwWhile => "KeywordWhile"
  | eof => "Eof"

/-- Whether a kind begins a declaration or statement. Parsing resumes at these after an error. -/
def startsStatement : Kind → Bool
  | kwClass | kwFun | kwVar | kwFor | kwIf | kwWhile | kwPrint | kwReturn => true
  | _ => false

end Kind

end Lox
