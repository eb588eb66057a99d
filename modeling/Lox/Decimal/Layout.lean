import Lox.Decimal.Shortest

/-!
# Number texts

How the shortest digits of a number are written down: which exponents are spelled out, and whether
an integral value ends in `.0`. The language has two spellings, one for printed values and one for
literals in token and tree listings.
-/

namespace Lox.Decimal

/-- The choices in writing a number. -/
structure Layout where
  /-- Whether a number whose first digit counts `10 ^ x` is written without exponent. -/
  positional : Int → Bool
  /-- Whether an integral number without exponent ends in `.0`. -/
  fraction : Bool

/-- Printed values have no exponent, and integral ones no fraction. -/
def Layout.printed : Layout := ⟨fun _ => true, false⟩

/-- Listed literals have a fraction or an exponent; the exponent below `10 ^ (-4)` and from
`10 ^ 16` on. -/
def Layout.listed : Layout := ⟨fun x => -4 ≤ x ∧ x < 16, true⟩

namespace Layout

/-- What an integral number written without exponent ends in. -/
def tail (l : Layout) : List Char :=
  if l.fraction then ['.', '0'] else []

/-- Digits followed by `zeros` zeros. -/
def padded (digits : List Char) (zeros : Nat) : List Char :=
  digits ++ List.replicate zeros '0'

/-- Writes an integer. -/
def integer (x : Int) : List Char :=
  (if x < 0 then ['-'] else []) ++ Nat.toDigits 10 x.natAbs

/-- Writes the digits of a coefficient that counts `10 ^ e`. -/
def digits (l : Layout) (ds : List Char) (e : Int) : List Char :=
  let x := ds.length - 1 + e
  if l.positional x then
    if 0 ≤ e then padded ds e.toNat ++ l.tail
    else if 0 ≤ x then ds.take (x + 1).toNat ++ '.' :: ds.drop (x + 1).toNat
    else '0' :: '.' :: padded [] (-x - 1).toNat ++ ds
  else
    ds.take 1 ++ (if ds.length = 1 then [] else '.' :: ds.drop 1) ++ 'e' :: integer x

/-- Writes a sign. -/
def sign (negative : Bool) : List Char :=
  if negative then ['-'] else []

/-- The characters of a number. -/
def chars (l : Layout) (x : Float) : List Char :=
  match Double.ofFloat x with
  | .nan => ['N', 'a', 'N']
  | .infinite negative => sign negative ++ ['i', 'n', 'f']
  | .zero negative => sign negative ++ '0' :: l.tail
  | .finite negative b =>
    let c := b.shortest
    sign negative ++ l.digits (Nat.toDigits 10 c.coefficient) c.exponent

/-- The text of a number. -/
def text (l : Layout) (x : Float) : String :=
  String.ofList (l.chars x)

end Layout

end Lox.Decimal
