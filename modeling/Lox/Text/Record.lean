/-!
# Record notation

Listings of tokens and trees name each constructor: `Name { field: value }` with named fields,
`Name(value)` with positional ones, and `[value, value]` for lists.
-/

namespace Lox.Text.Record

/-- Values separated by commas. -/
def commas (items : List String) : String :=
  ", ".intercalate items

/-- A constructor with named fields; `rest` says that there are others, which are not shown. -/
def entry (name : String) (fields : List (String × String)) (rest : Bool) : String :=
  let shown := fields.map fun (field, value) => field ++ ": " ++ value
  name ++ " \x7b " ++ commas (shown ++ if rest then [".."] else []) ++ " \x7d"

/-- A constructor with all its named fields. -/
def fields (name : String) (fields : List (String × String)) : String :=
  entry name fields false

/-- A constructor with positional fields. -/
def tuple (name : String) (items : List String) : String :=
  name ++ "(" ++ commas items ++ ")"

/-- A list. -/
def list (items : List String) : String :=
  "[" ++ commas items ++ "]"

/-- A value that may be absent. -/
def optional : Option String → String
  | none => "None"
  | some item => tuple "Some" [item]

/-- A truth value. -/
def boolean (b : Bool) : String :=
  if b then "true" else "false"

/-- A count. -/
def number (n : Nat) : String :=
  String.ofList (Nat.toDigits 10 n)

end Lox.Text.Record
