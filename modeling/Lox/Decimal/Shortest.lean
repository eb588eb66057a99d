/-!
# Shortest decimals

A positive double stands for every real number that rounds to it. `Binary.admits` tests whether a
decimal lies in that interval, by exact arithmetic on natural numbers, and `Binary.shortest` finds
the decimal with the fewest digits that does, the nearest one of these, and of two equally near the
larger.
-/

namespace Lox

/-- The decimal value `coefficient * 10 ^ exponent`. -/
structure Decimal where
  coefficient : Nat
  exponent : Int
deriving DecidableEq

/-- The positive double `mantissa * 2 ^ exponent`. It is `narrow` when the next smaller double is
half as far away as the next larger one, as below a power of two. -/
structure Binary where
  mantissa : Nat
  exponent : Int
  narrow : Bool
deriving DecidableEq

/-- What the bits of a double stand for. -/
inductive Double where
  | nan
  | infinite (negative : Bool)
  | zero (negative : Bool)
  | finite (negative : Bool) (magnitude : Binary)
deriving DecidableEq

/-- Reads sign, exponent and fraction off the sixty-four bits. -/
def Double.ofFloat (x : Float) : Double :=
  let bits := x.toBits.toNat
  let negative : Bool := bits >>> 63 = 1
  let field : Nat := (bits >>> 52) % 0x800
  let fraction : Nat := bits % 0x10000000000000
  if field = 0x7ff then
    if fraction = 0 then .infinite negative else .nan
  else if field = 0 then
    if fraction = 0 then .zero negative else .finite negative ⟨fraction, -1074, false⟩
  else
    .finite negative ⟨0x10000000000000 + fraction, (field : Int) - 1075, fraction = 0 ∧ field ≠ 1⟩

namespace Decimal

/-- A decimal and a quarter of the last place of `b` have a common denominator; `c.scaled b` counts
the decimal in that denominator and `b.quarter c` the quarter. -/
def scaled (c : Decimal) (b : Binary) : Nat :=
  (c.coefficient * Nat.pow 10 c.exponent.toNat) <<< (2 - b.exponent).toNat

/-- Moves the trailing zeros of the coefficient into the exponent. -/
def strip (c : Decimal) : Decimal :=
  if c.coefficient = 0 ∨ c.coefficient % 10 ≠ 0 then c
  else strip ⟨c.coefficient / 10, c.exponent + 1⟩
termination_by c.coefficient
decreasing_by omega

end Decimal

namespace Binary

/-- A quarter of the last place of `b`, in the common denominator with `c`. -/
def quarter (b : Binary) (c : Decimal) : Nat :=
  Nat.pow 10 (-c.exponent).toNat <<< (b.exponent - 2).toNat

/-- The lower end of the interval that rounds to `b`, in quarters of its last place. -/
def low (b : Binary) : Nat :=
  4 * b.mantissa - if b.narrow then 1 else 2

/-- The upper end of the interval that rounds to `b`, in quarters of its last place. -/
def high (b : Binary) : Nat :=
  4 * b.mantissa + 2

/-- Whether a decimal rounds to `b`: the ends of the interval do when the mantissa is even. -/
def admits (b : Binary) (c : Decimal) : Bool :=
  if b.mantissa % 2 = 0 then
    b.low * b.quarter c ≤ c.scaled b ∧ c.scaled b ≤ b.high * b.quarter c
  else
    b.low * b.quarter c < c.scaled b ∧ c.scaled b < b.high * b.quarter c

/-- The value of `b` in units of `10 ^ e`, rounded down. -/
def floorAt (b : Binary) (e : Int) : Nat :=
  ((b.mantissa * Nat.pow 10 (-e).toNat) <<< b.exponent.toNat) /
    (Nat.pow 10 e.toNat <<< (-b.exponent).toNat)

/-- A number of decimal places in which `b` has a digit that is not zero, since
`2 ^ 100 < 10 ^ 31`. -/
def places (b : Binary) : Nat :=
  (-b.exponent).toNat * 31 / 100 + 1

/-- The least power of ten above `b`, as its exponent. -/
def magnitude (b : Binary) : Int :=
  (Nat.toDigits 10 (b.floorAt (-b.places))).length - b.places

/-- The multiple of `10 ^ e` that is nearest to `b`, if it rounds to `b`. A tie goes up. -/
def nearest? (b : Binary) (e : Int) : Option Decimal :=
  let below : Decimal := ⟨b.floorAt e, e⟩
  let above : Decimal := ⟨b.floorAt e + 1, e⟩
  match b.admits below, b.admits above with
  | true, true =>
    some (if below.scaled b + above.scaled b ≤ 2 * (4 * b.mantissa * b.quarter below) then above
      else below)
  | true, false => some below
  | false, true => some above
  | false, false => none

/-- The value of `b` itself. -/
def exact (b : Binary) : Decimal :=
  if 0 ≤ b.exponent then ⟨b.mantissa <<< b.exponent.toNat, 0⟩
  else ⟨b.mantissa * Nat.pow 5 (-b.exponent).toNat, b.exponent⟩

/-- The decimal with the fewest digits that rounds to `b`. Seventeen digits always suffice. -/
def shortest (b : Binary) : Decimal :=
  let top := b.magnitude
  (((List.range 17).findSome? fun (n : Nat) => b.nearest? (top - 1 - n)).getD b.exact).strip

end Binary

end Lox
