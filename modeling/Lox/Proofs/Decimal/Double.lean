import Lox.Proofs.Decimal.Interval

/-!
# Doubles by their numbers

The bits of a finite double are its sign, an exponent field other than the largest, and a fraction.
`Double.ofFloat` loses none of them, and a double that is not zero has all the places that it can
have. So a sign and a number that rounds to it determine a finite double.
-/

namespace Lox.Double

/-- The double with a sign, an exponent field other than the largest one, and a fraction. -/
def ofFields (negative : Bool) (field fraction : Nat) : Double :=
  if field = 0 then
    if fraction = 0 then .zero negative else .finite negative ⟨fraction, -1074, false⟩
  else .finite negative ⟨2 ^ 52 + fraction, field - 1075, fraction = 0 ∧ field ≠ 1⟩

/-- The sign, the exponent field and the fraction of a finite double. -/
def fields : Double → Bool × Nat × Nat
  | .finite negative b =>
    if b.mantissa < 2 ^ 52 then (negative, 0, b.mantissa)
    else (negative, (b.exponent + 1075).toNat, b.mantissa - 2 ^ 52)
  | .zero negative | .infinite negative => (negative, 0, 0)
  | .nan => (false, 0, 0)

/-- A sign and a number denote a double. -/
inductive Denotes : Double → Bool → ℚ → Prop where
  | zero (negative : Bool) :
    Denotes (.zero negative) negative 0
  | finite (negative : Bool) {b : Binary} {v : ℚ} :
    b.Normal → b.Admits v →
    Denotes (.finite negative b) negative v

variable {negative : Bool} {field fraction : Nat} {v : ℚ} {d d' : Double} {x y : Float}

/-- The bits of a word are the three fields one behind the other. -/
lemma bits_eq (n : Nat) : n = n >>> 63 * 2 ^ 63 + (n >>> 52) % 2 ^ 11 * 2 ^ 52 + n % 2 ^ 52 := by
  rw [Nat.shiftRight_eq_div_pow, Nat.shiftRight_eq_div_pow]
  omega

/-- The largest exponent field is that of infinities and of what is not a number. -/
lemma field_ne_of_isFinite (finite : x.isFinite = true) :
    (x.toBits.toNat >>> 52) % 2 ^ 11 ≠ 2 ^ 11 - 1 := by
  intro largest
  have ones : @Float.Model.UnpackedFloat.unpackExponent .binary64 x.toBits.toBitVec = -1#11 := by
    apply BitVec.eq_of_toNat_eq
    rw [Float.Model.UnpackedFloat.unpackExponent, BitVec.toNat_cast, BitVec.extractLsb_toNat]
    exact largest
  have unpacked : x.isFinite =
      (Float.Model.UnpackedFloat.unpack .binary64 x.toBits.toBitVec).isFinite := rfl
  rw [unpacked, Float.Model.UnpackedFloat.unpack, if_pos ones] at finite
  split at finite
  · cases finite
  · cases finite

/-- A finite double is read by its fields. -/
lemma ofFloat_eq_ofFields (finite : x.isFinite = true) :
    ofFloat x = ofFields (x.toBits.toNat >>> 63 = 1) ((x.toBits.toNat >>> 52) % 2 ^ 11)
      (x.toBits.toNat % 2 ^ 52) := by
  have other := field_ne_of_isFinite finite
  rw [ofFloat]
  exact if_neg other

/-- The fields can be told from the double. -/
lemma fields_ofFields (small : fraction < 2 ^ 52) :
    (ofFields negative field fraction).fields = (negative, field, fraction) := by
  rw [ofFields]
  split
  · next isZero =>
    subst isZero
    split
    · next none => rw [fields, none]
    · rw [fields, if_pos small]
  · next some =>
    have full : ¬ 2 ^ 52 + fraction < 2 ^ 52 := by omega
    have field_eq : ((field : Int) - 1075 + 1075).toNat = field := by omega
    rw [fields, if_neg full, field_eq, Nat.add_sub_cancel_left]

/-- The words of finite doubles are as different as the doubles. -/
lemma ofFloat_injective (finite : x.isFinite = true) (finite' : y.isFinite = true)
    (eq : ofFloat x = ofFloat y) : x = y := by
  rw [ofFloat_eq_ofFields finite, ofFloat_eq_ofFields finite'] at eq
  have same := congrArg fields eq
  rw [fields_ofFields (Nat.mod_lt _ (by decide)), fields_ofFields (Nat.mod_lt _ (by decide)),
    Prod.mk.injEq, Prod.mk.injEq] at same
  obtain ⟨signs, fields, fractions⟩ := same
  have lt := x.toBits.toNat_lt
  have lt' := y.toBits.toNat_lt
  have words : x.toBits.toNat = y.toBits.toNat := by
    rw [decide_eq_decide] at signs
    rw [bits_eq x.toBits.toNat, bits_eq y.toBits.toNat, fields, fractions]
    rw [Nat.shiftRight_eq_div_pow, Nat.shiftRight_eq_div_pow] at signs ⊢
    omega
  obtain ⟨⟨bits, _⟩⟩ := x
  obtain ⟨⟨bits', _⟩⟩ := y
  obtain rfl : bits = bits' := UInt64.toNat_inj.mp words
  rfl

/-- A double that is not zero has all the places that it can have. -/
lemma ofFields_cases (small : fraction < 2 ^ 52) :
    ofFields negative field fraction = .zero negative ∨
      ∃ b : Binary, b.Normal ∧ ofFields negative field fraction = .finite negative b := by
  rw [ofFields]
  split
  · split
    · exact .inl rfl
    · next some =>
      exact .inr ⟨_, ⟨Nat.pos_of_ne_zero some, lt_trans small (by decide), le_rfl, .inl rfl,
        by simp⟩, rfl⟩
  · refine .inr ⟨_, ?_, rfl⟩
    constructor <;> dsimp only
    · omega
    · omega
    · omega
    · omega
    · rw [decide_eq_true_iff]
      omega

/-- A finite double is zero, or it has all the places that it can have. -/
lemma ofFloat_cases (finite : x.isFinite = true) :
    ∃ negative, ofFloat x = .zero negative ∨
      ∃ b : Binary, b.Normal ∧ ofFloat x = .finite negative b := by
  rw [ofFloat_eq_ofFields finite]
  exact ⟨_, ofFields_cases (Nat.mod_lt _ (by decide))⟩

/-- A sign and a number denote one double at most. -/
lemma Denotes.unique (h : d.Denotes negative v) (h' : d'.Denotes negative v) : d = d' := by
  cases h with
  | zero =>
    cases h' with
    | zero => rfl
    | finite _ normal admits => exact absurd (admits.pos normal) (lt_irrefl 0)
  | finite _ normal admits =>
    cases h' with
    | zero => exact absurd (admits.pos normal) (lt_irrefl 0)
    | finite _ normal' admits' => rw [admits.unique admits' normal normal']

end Lox.Double
