import Lox.Decimal.Layout
import Lox.Decimal.Read
import Lox.Proofs.Decimal.Double

/-!
# Numbers by their texts

A number is written as digits, with a point among them or an exponent behind them or both. Such a
text can be read back to the sign and the number for which it stands; for a finite double these are
its sign and its shortest decimal. So finite doubles with the same text are the same, whatever the
layout is.
-/

namespace Lox.Decimal

/-- The texts of nonnegative numbers without an exponent. -/
inductive Fixed : List Char → ℚ → Prop where
  | whole {digits : List Char} :
    digits ≠ [] → (∀ c ∈ digits, c.isDigit = true) →
    Fixed digits (natural digits)
  | point {digits further : List Char} :
    digits ≠ [] → (∀ c ∈ digits, c.isDigit = true) → (∀ c ∈ further, c.isDigit = true) →
    Fixed (digits ++ '.' :: further) (natural (digits ++ further) * 10 ^ (-further.length : ℤ))

/-- The texts of nonnegative numbers. -/
inductive Numeral : List Char → ℚ → Prop where
  | fixed {text : List Char} {v : ℚ} :
    Fixed text v →
    Numeral text v
  | scaled {text : List Char} {v : ℚ} (x : Int) :
    Fixed text v →
    Numeral (text ++ 'e' :: Layout.integer x) (v * 10 ^ x)

/-- Reads digits with an optional point. -/
def fixed (text : List Char) : ℚ :=
  let (whole, fraction) := splitPoint text
  natural (whole ++ fraction) * 10 ^ (-fraction.length : ℤ)

/-- Reads a number without a sign. -/
def unsigned (text : List Char) : ℚ :=
  fixed (text.takeWhile (· ≠ 'e')) *
    10 ^ ((integer? (text.dropWhile (· ≠ 'e')).tail).getD 0)

/-- Reads the sign of a number and the number behind it. -/
def signed (text : List Char) : Bool × ℚ :=
  if text.head? = some '-' then (true, unsigned text.tail) else (false, unsigned text)

variable {text digits further : List Char} {v : ℚ} {c d : Char}

/-- Digits differ from all other characters. -/
lemma ne_of_isDigit (digit : c.isDigit = true) (other : d.isDigit = false) : c ≠ d := by
  rintro rfl
  rw [digit] at other
  cases other

/-- Digits in front weigh as many tens as there are digits behind them. -/
lemma natural_append (digits further : List Char) :
    natural (digits ++ further) = 10 ^ further.length * natural digits + natural further :=
  Nat.ofDigitChars_append 0 |>.trans Nat.ofDigitChars_eq_ofDigitChars_zero

/-- Zeros have the value zero. -/
lemma natural_zeros (k : Nat) : natural (List.replicate k '0') = 0 :=
  Nat.ofDigitChars_replicate_zero

/-- Zeros behind digits multiply them by tens. -/
lemma natural_padded (digits : List Char) (k : Nat) :
    natural (Layout.padded digits k) = 10 ^ k * natural digits := by
  rw [Layout.padded, natural_append, natural_zeros, List.length_replicate, Nat.add_zero]

/-- The digits of a number have its value. -/
lemma natural_toDigits (n : Nat) : natural (Nat.toDigits 10 n) = n :=
  Nat.ofDigitChars_ten_toDigits

/-- The digits of a number are digits. -/
lemma isDigit_toDigits (n : Nat) : ∀ c ∈ Nat.toDigits 10 n, c.isDigit = true :=
  fun _ => Nat.isDigit_of_mem_toDigits (by decide) (le_refl 10)

/-- No other character occurs among digits. -/
lemma not_mem_digits (isDigits : ∀ c ∈ digits, c.isDigit = true) (other : d.isDigit = false) :
    d ∉ digits :=
  fun mem => ne_of_isDigit (isDigits d mem) other rfl

/-- A text is cut at the first place of a character. -/
lemma cut_at (free : d ∉ text) (rest : List Char) :
    (text ++ d :: rest).takeWhile (· ≠ d) = text ∧
      (text ++ d :: rest).dropWhile (· ≠ d) = d :: rest := by
  have goesOn : ∀ c ∈ text, decide (c ≠ d) = true := fun c mem =>
    decide_eq_true (ne_of_mem_of_not_mem mem free)
  rw [List.takeWhile_append_of_pos goesOn, List.dropWhile_append_of_pos goesOn]
  simp

/-- A text is not cut at a character that does not occur in it. -/
lemma not_cut (free : d ∉ text) :
    text.takeWhile (· ≠ d) = text ∧ text.dropWhile (· ≠ d) = [] := by
  rw [List.takeWhile_eq_self_iff, List.dropWhile_eq_nil_iff, and_self]
  exact fun c mem => decide_eq_true (ne_of_mem_of_not_mem mem free)

/-- A fixed numeral is read as its value. -/
lemma Fixed.fixed_eq (h : Fixed text v) : fixed text = v := by
  cases h with
  | whole _ isDigits =>
    obtain ⟨taken, dropped⟩ := not_cut (not_mem_digits isDigits (d := '.') rfl)
    rw [fixed, splitPoint, taken, dropped]
    simp
  | @point digits further _ isDigits _ =>
    obtain ⟨taken, dropped⟩ := cut_at (not_mem_digits isDigits (d := '.') rfl) further
    rw [fixed, splitPoint, taken, dropped]
    rfl

/-- There is no exponent in a number without exponent. -/
lemma Fixed.not_mem (h : Fixed text v) : 'e' ∉ text := by
  cases h with
  | whole _ isDigits => exact not_mem_digits isDigits rfl
  | point _ isDigits areDigits =>
    rw [List.mem_append, List.mem_cons]
    rintro (mem | point | mem)
    · exact not_mem_digits isDigits rfl mem
    · exact absurd point (by decide)
    · exact not_mem_digits areDigits rfl mem

/-- Some digits are read as the integer that they are. -/
lemma integer?_digits (some : digits ≠ []) (isDigits : ∀ c ∈ digits, c.isDigit = true) :
    integer? digits = .some (natural digits) := by
  have valid : digits ≠ [] ∧ digits.all Char.isDigit = true :=
    ⟨some, List.all_eq_true.mpr isDigits⟩
  have starts : ∀ {sign : Char}, sign.isDigit = false → ∀ rest, digits ≠ sign :: rest := by
    rintro sign other rest rfl
    exact ne_of_isDigit (isDigits sign List.mem_cons_self) other rfl
  rw [integer?]
  · exact if_pos valid
  · exact starts rfl
  · exact starts rfl

/-- Digits with a minus in front are read as the negative of the integer that they are. -/
lemma integer?_minus (some : digits ≠ []) (isDigits : ∀ c ∈ digits, c.isDigit = true) :
    integer? ('-' :: digits) = .some (-natural digits) :=
  if_pos ⟨some, List.all_eq_true.mpr isDigits⟩

/-- Integers are read back. -/
lemma integer?_integer (x : Int) : integer? (Layout.integer x) = some x := by
  have isDigits := isDigit_toDigits x.natAbs
  rw [Layout.integer]
  split
  · rw [List.singleton_append, integer?_minus Nat.toDigits_ne_nil isDigits, natural_toDigits]
    congr 1
    omega
  · rw [List.nil_append, integer?_digits Nat.toDigits_ne_nil isDigits, natural_toDigits]
    congr 1
    omega

/-- A numeral is read as its value. -/
lemma Numeral.unsigned_eq (h : Numeral text v) : unsigned text = v := by
  cases h with
  | fixed h =>
    obtain ⟨taken, dropped⟩ := not_cut h.not_mem
    rw [unsigned, taken, dropped, h.fixed_eq]
    exact mul_one _
  | scaled x h =>
    obtain ⟨taken, dropped⟩ := cut_at h.not_mem (Layout.integer x)
    rw [unsigned, taken, dropped, List.tail_cons, integer?_integer, h.fixed_eq]
    rfl

section

variable (l : Layout)

/-- The value of a fixed numeral may be written otherwise. -/
lemma Fixed.of_eq {w : ℚ} (h : Fixed text v) (eq : v = w) : Fixed text w :=
  eq ▸ h

/-- A fraction without digits that count may be written behind the point. -/
lemma fixed_tail (some : digits ≠ []) (isDigits : ∀ c ∈ digits, c.isDigit = true) :
    Fixed (digits ++ l.tail) (natural digits) := by
  rw [Layout.tail]
  split
  · refine (Fixed.point some isDigits (List.forall_mem_singleton.mpr rfl)).of_eq ?_
    rw [natural_append, show natural ['0'] = 0 from rfl, List.length_singleton, Nat.cast_add,
      Nat.cast_mul]
    norm_num
    ring
  · rw [List.append_nil]
    exact .whole some isDigits

/-- A point in front of the last `n` digits divides by a power of ten. -/
lemma fixed_split {n : Nat} (pos : 0 < n) (some : digits ≠ [])
    (isDigits : ∀ c ∈ digits, c.isDigit = true) :
    Fixed (digits.take n ++ '.' :: digits.drop n)
      (natural digits * 10 ^ (-(digits.length - n : ℕ) : ℤ)) := by
  have front : digits.take n ≠ [] := by
    rw [Ne, List.take_eq_nil_iff]
    exact not_or.mpr ⟨pos.ne', some⟩
  refine (Fixed.point front (fun c mem => isDigits c (List.mem_of_mem_take mem))
    (fun c mem => isDigits c (List.mem_of_mem_drop mem))).of_eq ?_
  rw [List.take_append_drop, List.length_drop]

/-- Padded digits are digits. -/
lemma isDigit_padded (isDigits : ∀ c ∈ digits, c.isDigit = true) (n : Nat) :
    ∀ c ∈ Layout.padded digits n, c.isDigit = true := by
  refine List.forall_mem_append.mpr ⟨isDigits, fun c mem => ?_⟩
  rw [List.eq_of_mem_replicate mem]
  rfl

/-- Zeros between the point and the digits divide by powers of ten. -/
lemma fixed_behind (isDigits : ∀ c ∈ digits, c.isDigit = true) (n : Nat) :
    Fixed ('0' :: '.' :: (Layout.padded [] n ++ digits))
      (natural digits * 10 ^ (-(n + digits.length : ℕ) : ℤ)) := by
  have areDigits := List.forall_mem_append.mpr
    ⟨isDigit_padded (List.forall_mem_nil _) n, isDigits⟩
  refine (Fixed.point (List.cons_ne_nil '0' []) (List.forall_mem_singleton.mpr rfl)
    areDigits).of_eq ?_
  have zero : natural ['0'] = 0 := rfl
  have none : natural [] = 0 := rfl
  rw [natural_append, zero, natural_append, natural_padded, none, List.length_append,
    Layout.padded, List.nil_append, List.length_replicate]
  simp

/-- A single digit in front of the point, which is left out if there is no other. -/
lemma fixed_first (some : digits ≠ []) (isDigits : ∀ c ∈ digits, c.isDigit = true) :
    Fixed (digits.take 1 ++ if digits.length = 1 then [] else '.' :: digits.drop 1)
      (natural digits * 10 ^ (-(digits.length - 1 : ℕ) : ℤ)) := by
  split
  · next single =>
    rw [List.append_nil, List.take_of_length_le single.le, single]
    exact (Fixed.whole some isDigits).of_eq (mul_one _).symm
  · exact fixed_split Nat.one_pos some isDigits

/-- The digits of a coefficient are written with its exponent. -/
lemma numeral_digits (some : digits ≠ []) (isDigits : ∀ c ∈ digits, c.isDigit = true) (e : Int) :
    Numeral (l.digits digits e) (natural digits * 10 ^ e) := by
  have length := List.length_pos_iff.mpr some
  rw [Layout.digits]
  split
  · split
    · next whole =>
      have more : Layout.padded digits e.toNat ≠ [] := List.append_ne_nil_of_left_ne_nil some _
      refine .fixed ((fixed_tail l more (isDigit_padded isDigits _)).of_eq ?_)
      rw [natural_padded, Nat.cast_mul, Nat.cast_pow, Nat.cast_ofNat, ← zpow_natCast,
        Int.toNat_of_nonneg whole, mul_comm]
    · split
      · have pos : 0 < (digits.length - 1 + e + 1).toNat := by omega
        refine .fixed ((fixed_split pos some isDigits).of_eq ?_)
        congr 2
        omega
      · refine .fixed ((fixed_behind isDigits _).of_eq ?_)
        congr 2
        omega
  · have scaled := Numeral.scaled (digits.length - 1 + e) (fixed_first some isDigits)
    have exponents : -((digits.length - 1 : ℕ) : ℤ) + (digits.length - 1 + e) = e := by omega
    rw [mul_assoc, ← zpow_add₀ (by norm_num), exponents] at scaled
    exact scaled

/-- The text of a number: digits, first of all, with points, exponents and signs. -/
lemma Fixed.first (h : Fixed text v) : ∃ c rest, text = c :: rest ∧ c.isDigit = true := by
  cases h with
  | whole some isDigits | point some isDigits _ =>
    obtain ⟨c, rest, rfl⟩ := List.exists_cons_of_ne_nil some
    exact ⟨c, _, rfl, isDigits c List.mem_cons_self⟩

/-- A numeral begins with a digit. -/
lemma Numeral.first (h : Numeral text v) : ∃ c rest, text = c :: rest ∧ c.isDigit = true := by
  cases h with
  | fixed h => exact h.first
  | scaled x h =>
    obtain ⟨c, rest, rfl, isDigit⟩ := h.first
    exact ⟨c, _, rfl, isDigit⟩

/-- The characters of a number. -/
lemma Numeral.mem (h : Numeral text v) : ∀ c ∈ text, c.isDigit = true ∨ c ∈ ['.', 'e', '-'] := by
  have digits : ∀ {ds : List Char}, (∀ c ∈ ds, c.isDigit = true) →
      ∀ c ∈ ds, c.isDigit = true ∨ c ∈ ['.', 'e', '-'] := fun all c mem => .inl (all c mem)
  have fixed : ∀ {text : List Char} {v : ℚ}, Fixed text v →
      ∀ c ∈ text, c.isDigit = true ∨ c ∈ ['.', 'e', '-'] := by
    intro text v h
    cases h with
    | whole _ isDigits => exact digits isDigits
    | point _ isDigits areDigits =>
      exact List.forall_mem_append.mpr ⟨digits isDigits,
        List.forall_mem_cons.mpr ⟨.inr (by decide), digits areDigits⟩⟩
  cases h with
  | fixed h => exact fixed h
  | scaled x h =>
    refine List.forall_mem_append.mpr ⟨fixed h, List.forall_mem_cons.mpr ⟨.inr (by decide), ?_⟩⟩
    refine List.forall_mem_append.mpr ⟨?_, digits (isDigit_toDigits _)⟩
    split
    · exact List.forall_mem_singleton.mpr (.inr (by decide))
    · exact List.forall_mem_nil _

/-- A sign is read back with the number behind it. -/
lemma Numeral.signed_eq (h : Numeral text v) (negative : Bool) :
    signed (Layout.sign negative ++ text) = (negative, v) := by
  obtain ⟨c, rest, rfl, isDigit⟩ := h.first
  cases negative with
  | true =>
    rw [← h.unsigned_eq]
    rfl
  | false =>
    have noSign : ¬ (Layout.sign false ++ c :: rest).head? = some '-' := fun eq =>
      ne_of_isDigit isDigit (d := '-') rfl (Option.some.inj eq)
    rw [signed, if_neg noSign, ← h.unsigned_eq]
    rfl

variable {x y : Float}

/-- A finite double is written as its sign and a number that denotes it. -/
lemma exists_numeral (finite : x.isFinite = true) :
    ∃ negative text v, l.chars x = Layout.sign negative ++ text ∧ Numeral text v ∧
      (Double.ofFloat x).Denotes negative v := by
  obtain ⟨negative, eq | ⟨b, normal, eq⟩⟩ := Double.ofFloat_cases finite
  · rw [Layout.chars, eq]
    refine ⟨negative, '0' :: l.tail, 0, rfl, .fixed ?_, .zero negative⟩
    exact fixed_tail l (List.cons_ne_nil '0' []) (List.forall_mem_singleton.mpr rfl)
  · rw [Layout.chars, eq]
    have numeral := numeral_digits l Nat.toDigits_ne_nil
      (isDigit_toDigits b.shortest.coefficient) b.shortest.exponent
    rw [natural_toDigits] at numeral
    exact ⟨negative, _, _, rfl, numeral, .finite negative normal (Binary.admits_shortest normal)⟩

/-- A finite double is written with digits, points, exponents and signs, and starts with a digit or a
sign. -/
lemma chars_cases (finite : x.isFinite = true) :
    (∀ c ∈ l.chars x, c.isDigit = true ∨ c ∈ ['.', 'e', '-']) ∧
      ∃ c cs, l.chars x = c :: cs ∧ (c.isDigit = true ∨ c = '-') := by
  obtain ⟨negative, text, v, eq, numeral, -⟩ := exists_numeral l finite
  obtain ⟨c, rest, rfl, isDigit⟩ := numeral.first
  rw [eq]
  cases negative with
  | true =>
    exact ⟨List.forall_mem_cons.mpr ⟨.inr (by decide), numeral.mem⟩, '-', _, rfl, .inr rfl⟩
  | false => exact ⟨numeral.mem, c, rest, rfl, .inl isDigit⟩

/-- The text of a finite double can be read back to what denotes it. -/
lemma denotes_chars (finite : x.isFinite = true) :
    (Double.ofFloat x).Denotes (signed (l.chars x)).1 (signed (l.chars x)).2 := by
  obtain ⟨negative, text, v, eq, numeral, denotes⟩ := exists_numeral l finite
  rw [eq, numeral.signed_eq]
  exact denotes

/-- The text of a number has the characters of its layout. -/
lemma Layout.toList_text (x : Float) : (l.text x).toList = l.chars x :=
  String.toList_ofList

/-- Finite doubles with the same text are the same. -/
theorem Layout.text_injective (finite : x.isFinite = true) (finite' : y.isFinite = true)
    (same : l.text x = l.text y) : x = y := by
  have chars : l.chars x = l.chars y := String.ofList_injective same
  have denotes := denotes_chars l finite
  rw [chars] at denotes
  exact Double.ofFloat_injective finite finite' (denotes.unique (denotes_chars l finite'))

end

end Lox.Decimal
