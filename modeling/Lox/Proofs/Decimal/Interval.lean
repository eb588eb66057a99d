import Lox.Decimal.Shortest
import Mathlib

/-!
# Rounding intervals

A double stands for the numbers of an interval around it, of which the ends belong to it if its
mantissa is even. The intervals of two doubles have no number in common: they meet in an end at
most, and then one of the mantissas is odd. So a double is determined by any decimal that rounds to
it, and its shortest decimal does.
-/

namespace Lox

/-- The number that a decimal stands for. -/
def Decimal.value (c : Decimal) : ℚ :=
  c.coefficient * 10 ^ c.exponent

namespace Binary

/-- A quarter of the last place. -/
def unit (b : Binary) : ℚ :=
  2 ^ (b.exponent - 2)

/-- The number lies in the interval of the double. -/
def Admits (b : Binary) (v : ℚ) : Prop :=
  if b.mantissa % 2 = 0 then b.low * b.unit ≤ v ∧ v ≤ b.high * b.unit
  else b.low * b.unit < v ∧ v < b.high * b.unit

/-- The interval of a double ends before that of another one starts, or where it starts. Then it has
the end as its own only if the other one has not. -/
def Before (b b' : Binary) : Prop :=
  b.high * b.unit ≤ b'.low * b'.unit ∧
    (b.mantissa % 2 = 0 → b'.mantissa % 2 = 0 → b.high * b.unit < b'.low * b'.unit)

/-- The mantissa has as many places as it can have. -/
structure Normal (b : Binary) : Prop where
  pos : 0 < b.mantissa
  lt : b.mantissa < 2 ^ 53
  le : -1074 ≤ b.exponent
  full : b.exponent = -1074 ∨ 2 ^ 52 ≤ b.mantissa
  narrow : b.narrow = true ↔ b.mantissa = 2 ^ 52 ∧ b.exponent ≠ -1074

variable {b b' : Binary} {c : Decimal} {v : ℚ}

/-- A quarter of the last place is positive. -/
lemma unit_pos (b : Binary) : 0 < b.unit :=
  zpow_pos (by norm_num) _

/-- A power is split into what is above and what is below the line of a fraction. -/
lemma pow_toNat {a : ℚ} (nonzero : a ≠ 0) (e : Int) :
    a ^ e.toNat = a ^ e * a ^ (-e).toNat := by
  rw [← zpow_natCast, ← zpow_natCast, ← zpow_add₀ nonzero]
  congr 1
  omega

/-- The common denominator of a decimal and a quarter of the last place. -/
def denominator (b : Binary) (c : Decimal) : ℚ :=
  10 ^ (-c.exponent).toNat * 2 ^ (2 - b.exponent).toNat

/-- The common denominator is positive. -/
lemma denominator_pos (b : Binary) (c : Decimal) : 0 < b.denominator c := by
  unfold denominator
  positivity

/-- The scaled decimal is the numerator of its value over the common denominator. -/
lemma scaled_eq (b : Binary) (c : Decimal) : (c.scaled b : ℚ) = c.value * b.denominator c := by
  have split := pow_toNat (show (10 : ℚ) ≠ 0 by norm_num) c.exponent
  rw [Decimal.scaled, Nat.pow_eq, Nat.shiftLeft_eq, Decimal.value, denominator]
  push_cast
  rw [split]
  ring

/-- The whole number for a quarter of the last place is its numerator over the common denominator.
-/
lemma quarter_eq (b : Binary) (c : Decimal) : (b.quarter c : ℚ) = b.unit * b.denominator c := by
  have split := pow_toNat (show (2 : ℚ) ≠ 0 by norm_num) (b.exponent - 2)
  rw [neg_sub] at split
  rw [quarter, Nat.pow_eq, Nat.shiftLeft_eq, unit, denominator]
  push_cast
  rw [split]
  ring

/-- The test by whole numbers is one for the interval. -/
lemma admits_iff : b.admits c = true ↔ b.Admits c.value := by
  have pos := b.denominator_pos c
  have le : ∀ n : Nat, n * b.quarter c ≤ c.scaled b ↔ n * b.unit ≤ c.value := by
    intro n
    rw [← mul_le_mul_iff_left₀ pos, mul_assoc, ← quarter_eq, ← scaled_eq, ← Nat.cast_mul,
      Nat.cast_le]
  have ge : ∀ n : Nat, c.scaled b ≤ n * b.quarter c ↔ c.value ≤ n * b.unit := by
    intro n
    rw [← mul_le_mul_iff_left₀ pos, mul_assoc, ← quarter_eq, ← scaled_eq, ← Nat.cast_mul,
      Nat.cast_le]
  rw [admits, Admits]
  split
  · rw [decide_eq_true_iff, le, ge]
  · rw [decide_eq_true_iff, ← not_le, ← not_le, le, ge, not_le, not_le]

/-- With a larger exponent, a double starts where the smaller one ends or behind that. -/
lemma before_of_exponent (h : b.Normal) (h' : b'.Normal) (less : b.exponent < b'.exponent) :
    b.Before b' := by
  have pos := b.unit_pos
  have bound := h.lt
  have least := h.le
  -- The mantissa of the larger one is full, and its unit is at least twice as large.
  have full : 2 ^ 52 ≤ b'.mantissa := h'.full.resolve_left (by omega)
  have double : 2 * b.unit ≤ b'.unit := by
    rw [unit, ← zpow_one_add₀ (by norm_num)]
    exact zpow_le_zpow_right₀ (by norm_num) (by omega)
  have ends : b.high ≤ 2 * b'.low ∧ (b.mantissa % 2 = 0 → b.high < 2 * b'.low) := by
    rw [high, low]
    split
    · omega
    · next wide =>
      have : b'.mantissa ≠ 2 ^ 52 := fun eq => wide (h'.narrow.mpr ⟨eq, by omega⟩)
      omega
  have reach : (2 * b'.low : ℕ) * b.unit ≤ b'.low * b'.unit := by
    rw [Nat.cast_mul, mul_comm (Nat.cast 2), mul_assoc]
    exact mul_le_mul_of_nonneg_left double (Nat.cast_nonneg _)
  refine ⟨le_trans ?_ reach, fun even _ => lt_of_lt_of_le ?_ reach⟩
  · exact mul_le_mul_of_nonneg_right (Nat.cast_le.mpr ends.1) pos.le
  · exact mul_lt_mul_of_pos_right (Nat.cast_lt.mpr (ends.2 even)) pos

/-- With the same exponent and a larger mantissa, too. -/
lemma before_of_mantissa (h : b.Normal) (h' : b'.Normal) (same : b.exponent = b'.exponent)
    (less : b.mantissa < b'.mantissa) : b.Before b' := by
  have wide : ¬ b'.narrow = true := by
    intro narrow
    have := h'.narrow.mp narrow
    have := h.full
    omega
  have ends : b.high ≤ b'.low ∧
      (b.mantissa % 2 = 0 → b'.mantissa % 2 = 0 → b.high < b'.low) := by
    rw [high, low, if_neg wide]
    omega
  have unit_eq : b'.unit = b.unit := by rw [unit, unit, same]
  rw [Before, unit_eq]
  refine ⟨?_, fun even even' => ?_⟩
  · exact mul_le_mul_of_nonneg_right (Nat.cast_le.mpr ends.1) b.unit_pos.le
  · exact mul_lt_mul_of_pos_right (Nat.cast_lt.mpr (ends.2 even even')) b.unit_pos

/-- No number of the interval is above its upper end. -/
lemma Admits.le_high (h : b.Admits v) : v ≤ b.high * b.unit := by
  rw [Admits] at h
  split at h
  · exact h.2
  · exact h.2.le

/-- No number of the interval is below its lower end. -/
lemma Admits.low_le (h : b.Admits v) : b.low * b.unit ≤ v := by
  rw [Admits] at h
  split at h
  · exact h.1
  · exact h.1.le

/-- No number lies in the intervals of a smaller and a larger double. -/
lemma Admits.not_of_before (admits : b.Admits v) (before : b.Before b') : ¬ b'.Admits v := by
  intro admits'
  have above := admits.le_high
  have below := admits'.low_le
  obtain ⟨le, lt⟩ := before
  rw [Admits] at admits admits'
  split at admits
  · next even =>
    split at admits'
    · next even' => linarith [lt even even']
    · linarith
  · linarith

/-- A double is determined by each number that rounds to it. -/
lemma Admits.unique (admits : b.Admits v) (admits' : b'.Admits v) (h : b.Normal)
    (h' : b'.Normal) : b = b' := by
  have notBefore : ¬ b.Before b' := fun before => admits.not_of_before before admits'
  have notBehind : ¬ b'.Before b := fun before => admits'.not_of_before before admits
  have exponent : b.exponent = b'.exponent := by
    rcases lt_trichotomy b.exponent b'.exponent with less | eq | more
    · exact absurd (before_of_exponent h h' less) notBefore
    · exact eq
    · exact absurd (before_of_exponent h' h more) notBehind
  have mantissa : b.mantissa = b'.mantissa := by
    rcases lt_trichotomy b.mantissa b'.mantissa with less | eq | more
    · exact absurd (before_of_mantissa h h' exponent less) notBefore
    · exact eq
    · exact absurd (before_of_mantissa h' h exponent.symm more) notBehind
  have narrow : b.narrow = b'.narrow := by
    rw [Bool.eq_iff_iff, h.narrow, h'.narrow, mantissa, exponent]
  obtain ⟨_, _, _⟩ := b
  obtain ⟨_, _, _⟩ := b'
  rw [mk.injEq]
  exact ⟨mantissa, exponent, narrow⟩

/-- Only positive numbers round to a double that is not zero. -/
lemma Admits.pos (admits : b.Admits v) (h : b.Normal) : 0 < v := by
  have mantissa := h.pos
  have low : 0 < b.low := by
    rw [low]
    split
    · omega
    · omega
  exact lt_of_lt_of_le (mul_pos (Nat.cast_pos.mpr low) b.unit_pos) admits.low_le

/-- A decimal on the grid is nearest only if it rounds to the double. -/
lemma admits_of_nearest? {e : Int} (found : b.nearest? e = some c) : b.Admits c.value := by
  rw [nearest?] at found
  rw [← admits_iff]
  split at found
  · next below above =>
    cases found
    split
    · exact above
    · exact below
  · next below _ =>
    cases found
    exact below
  · next _ above =>
    cases found
    exact above
  · cases found

/-- A fraction in twos is one in tens. -/
lemma pow_five_toNat {e : Int} (negative : ¬ 0 ≤ e) :
    (5 : ℚ) ^ (-e).toNat * 10 ^ e = 2 ^ e := by
  have tens : (10 : ℚ) ^ e = 2 ^ e * 5 ^ e := by
    rw [← mul_zpow]
    norm_num
  have split := pow_toNat (show (5 : ℚ) ≠ 0 by norm_num) e
  rw [Int.toNat_of_nonpos (by omega), pow_zero] at split
  rw [tens, mul_left_comm, mul_comm _ ((5 : ℚ) ^ e), ← split, mul_one]

/-- The value of a double itself. -/
lemma value_exact (b : Binary) : b.exact.value = (4 * b.mantissa : ℕ) * b.unit := by
  have quarters : (4 : ℚ) * 2 ^ (b.exponent - 2) = 2 ^ b.exponent := by
    rw [zpow_sub₀ (by norm_num)]
    norm_num
    ring
  rw [unit, Nat.cast_mul, mul_right_comm, Nat.cast_ofNat, quarters, exact]
  split
  · next whole =>
    have split := pow_toNat (show (2 : ℚ) ≠ 0 by norm_num) b.exponent
    rw [Int.toNat_of_nonpos (neg_nonpos_of_nonneg whole), pow_zero, mul_one] at split
    rw [Decimal.value, Nat.shiftLeft_eq, Nat.cast_mul, Nat.cast_pow, Nat.cast_ofNat, split,
      zpow_zero, mul_one, mul_comm]
  · next part =>
    rw [Decimal.value, Nat.pow_eq, Nat.cast_mul, Nat.cast_pow, Nat.cast_ofNat, mul_assoc,
      pow_five_toNat part, mul_comm]

/-- A double lies in the middle of its interval. -/
lemma admits_exact (h : b.Normal) : b.Admits b.exact.value := by
  have pos := b.unit_pos
  have mantissa := h.pos
  have below : b.low < 4 * b.mantissa := by
    rw [low]
    split
    · omega
    · omega
  have above : 4 * b.mantissa < b.high := by
    rw [high]
    omega
  have below : b.low * b.unit < (4 * b.mantissa : ℕ) * b.unit :=
    mul_lt_mul_of_pos_right (Nat.cast_lt.mpr below) pos
  have above : (4 * b.mantissa : ℕ) * b.unit < b.high * b.unit :=
    mul_lt_mul_of_pos_right (Nat.cast_lt.mpr above) pos
  rw [value_exact, Admits]
  split
  · exact ⟨below.le, above.le⟩
  · exact ⟨below, above⟩

end Binary

/-- Trailing zeros of the coefficient do not change the value. -/
lemma Decimal.value_strip (c : Decimal) : c.strip.value = c.value := by
  fun_induction strip c with
  | case1 c done => rfl
  | case2 c more ih =>
    obtain ⟨_, zero⟩ : c.coefficient ≠ 0 ∧ c.coefficient % 10 = 0 := by omega
    have split : c.coefficient = 10 * (c.coefficient / 10) := by omega
    rw [ih, value, value, zpow_add_one₀ (by norm_num), ← mul_assoc]
    conv_rhs => rw [split]
    push_cast
    ring

/-- The shortest decimal of a double rounds to it. -/
lemma Binary.admits_shortest {b : Binary} (h : b.Normal) : b.Admits b.shortest.value := by
  rw [shortest, Decimal.value_strip]
  cases found : (List.range 17).findSome? fun (n : Nat) => b.nearest? (b.magnitude - 1 - n) with
  | none => exact admits_exact h
  | some c =>
    obtain ⟨n, _, eq⟩ := List.exists_of_findSome?_eq_some found
    exact admits_of_nearest? eq

end Lox
