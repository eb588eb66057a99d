/-!
# Reading numbers

A decimal is read to the nearest double, a tie to the even mantissa, whatever its number of digits.
Literals of the language are digits with an optional fraction; `read?` also knows signs, exponents
and the names of the values that have no digits.
-/

namespace Lox.Decimal

/-- The value of a list of digits. -/
def natural (digits : List Char) : Nat :=
  digits.foldl (fun n c => 10 * n + (c.toNat - '0'.toNat)) 0

/-- The double nearest to `coefficient * 10 ^ exponent`. -/
def round (coefficient : Nat) (exponent : Int) : Float :=
  Float.ofScientific coefficient (exponent < 0) exponent.natAbs

/-- Splits a text at its first point, which is dropped. -/
def splitPoint (text : List Char) : List Char × List Char :=
  (text.takeWhile (· ≠ '.'), (text.dropWhile (· ≠ '.')).tail)

/-- Reads digits with an optional point and further digits. -/
def literal (text : List Char) : Float :=
  let (whole, fraction) := splitPoint text
  round (natural (whole ++ fraction)) (-fraction.length)

/-- Reads an optionally signed run of digits. -/
def integer? (text : List Char) : Option Int :=
  let (negative, digits) := match text with
    | '-' :: rest => (true, rest)
    | '+' :: rest => (false, rest)
    | rest => (false, rest)
  if digits ≠ [] ∧ digits.all Char.isDigit then
    some (if negative then -natural digits else natural digits)
  else none

/-- Reads digits with an optional point among or around them and an optional exponent. -/
def unsigned? (text : List Char) : Option Float :=
  let isMark (c : Char) := c = 'e' ∨ c = 'E'
  let mantissa := text.takeWhile (¬ isMark ·)
  let (whole, fraction) := splitPoint mantissa
  if whole ++ fraction ≠ [] ∧ (whole ++ fraction).all Char.isDigit then
    let exponent? := match text.dropWhile (¬ isMark ·) with
      | [] => some 0
      | _ :: rest => integer? rest
    exponent?.map fun e => round (natural (whole ++ fraction)) (e - fraction.length)
  else
    match String.ofList (text.map Char.toLower) with
    | "inf" | "infinity" => some (1 / 0)
    | "nan" => some (0 / 0)
    | _ => none

/-- Reads a number with an optional sign. -/
def read? (text : String) : Option Float :=
  match text.toList with
  | '-' :: rest => (unsigned? rest).map (- ·)
  | '+' :: rest => unsigned? rest
  | rest => unsigned? rest

end Lox.Decimal
