import PrinterShadow.Proofs.Decimal.Shortest

/-!
How near a written number comes to its double. The text to a number of places is one numeral, and
the exact value of that is within half a unit of the last place of the number that the double stands
for, however large or small it is and also on a tie.
-/

namespace PrinterShadow

open Double (value magnitude magnitude_eq_div)

/-- The exact value of a decimal. -/
def Decimal.value (d : Decimal) : ℚ :=
  (if d.negative then -1 else 1) * d.significand * 10 ^ d.exponent

namespace Numeral

/-- The exact value of a text that is one numeral. -/
def value? (text : String) : Option ℚ :=
  match split? text.toList with
  | some (d, []) => some d.value
  | _ => none

/-- Whether a text is one numeral, and no farther from a number than `error`. -/
def Near (error q : ℚ) (text : String) : Prop :=
  ∃ r, value? text = some r ∧ |r - q| ≤ error

end Numeral

theorem abs_roundDiv_sub_le (num : Nat) {den : Nat} (hden : 0 < den) :
    |(roundDiv num den : ℚ) - num / den| ≤ 1 / 2 := by
  have hden' : (0 : ℚ) < den := by exact_mod_cast hden
  -- the quotient and a part of a unit
  obtain ⟨part, hpart⟩ : ∃ part : ℚ, part = (num % den : Nat) / den := ⟨_, rfl⟩
  have hquotient : (num : ℚ) / den = (num / den : Nat) + part := by
    have hsplit : (den : ℚ) * (num / den : Nat) + (num % den : Nat) = num := by
      exact_mod_cast Nat.div_add_mod num den
    rw [hpart, ← hsplit]
    field_simp
  have hlow : 2 * (num % den) ≤ den → part ≤ 1 / 2 := by
    intro h
    rw [hpart, div_le_div_iff₀ hden' two_pos]
    exact_mod_cast (by omega : num % den * 2 ≤ 1 * den)
  have hhigh : den ≤ 2 * (num % den) → 1 / 2 ≤ part := by
    intro h
    rw [hpart, div_le_div_iff₀ two_pos hden']
    exact_mod_cast (by omega : 1 * den ≤ num % den * 2)
  have hnonneg : 0 ≤ part := by
    rw [hpart]
    positivity
  have hlt : part < 1 := by
    rw [hpart, div_lt_one hden']
    exact_mod_cast Nat.mod_lt num hden
  rw [hquotient, abs_le]
  simp only [roundDiv]
  split_ifs with hbelow habove
  · have := hlow hbelow.le
    constructor <;> linarith
  · have := hhigh habove.le
    push_cast
    constructor <;> linarith
  · have hhalf : part = 1 / 2 := le_antisymm (hlow (by omega)) (hhigh (by omega))
    have hbit : ((num / den % 2 : Nat) : ℚ) ≤ 1 := by
      exact_mod_cast Nat.le_of_lt_succ (Nat.mod_lt _ two_pos)
    have hbit' : (0 : ℚ) ≤ (num / den % 2 : Nat) := Nat.cast_nonneg _
    rw [Nat.cast_add]
    constructor <;> linarith

/-- To so many places a fraction is rounded to within half a unit of the last one. -/
theorem Decimal.abs_value_sub_le (negative : Bool) (num : Nat) {den : Nat} (hden : 0 < den)
    (places : Nat) :
    |value ⟨negative, roundDiv (num * 10 ^ places) den, -places⟩ -
      (if negative then -1 else 1) * ((num : ℚ) / den)| ≤ 1 / 2 / 10 ^ places := by
  have hunit : (0 : ℚ) < 10 ^ places := by positivity
  have hround := abs_roundDiv_sub_le (num * 10 ^ places) hden
  generalize roundDiv (num * 10 ^ places) den = units at hround ⊢
  have hscaled : value ⟨negative, units, -places⟩ -
        (if negative then -1 else 1) * ((num : ℚ) / den) =
      (if negative then -1 else 1) * ((units - (num * 10 ^ places : Nat) / den) / 10 ^ places) := by
    rw [value, zpow_neg, zpow_natCast]
    push_cast
    field_simp
  have hsign : |(if negative then -1 else 1 : ℚ)| = 1 := by cases negative <;> simp
  rw [hscaled, abs_mul, hsign, one_mul, abs_div, abs_of_pos hunit]
  exact div_le_div_of_nonneg_right hround hunit.le

theorem Exact.value_of_finite {x : Float} {negative : Bool} {m : Nat} {e : Int}
    (h : Exact.ofFloat x = .finite negative m e) :
    value x = (if negative then -1 else 1) * ((numerator m e : ℚ) / denominator e) := by
  rw [← magnitude_eq_div]
  unfold Exact.ofFloat at h
  cases hx : x.toModel.unpack with
  | notANumber | infinity s => simp [hx] at h
  | zero s =>
    simp only [hx, finite.injEq] at h
    obtain ⟨-, rfl, rfl⟩ := h
    rw [Double.value_of_zero hx, Double.magnitude_zero, mul_zero]
  | finite s m' e' hm =>
    simp only [hx, finite.injEq] at h
    obtain ⟨rfl, rfl, rfl⟩ := h
    rw [Double.value_of_unpack hx]
    cases s with
    | positive => exact (one_mul _).symm
    | negative => exact (neg_one_mul _).symm

theorem Numeral.value?_signed_pointed (negative : Bool) (places n : Nat) :
    value? (String.ofList (Decimal.signed negative (Decimal.pointed places n))) =
      some (Decimal.value ⟨negative, n, -places⟩) := by
  simp only [value?, String.toList_ofList, split?_pointed]

/-- A finite double is written as a numeral within half a unit of the last place. -/
theorem near_fixedText {x : Float} (h : x.isFinite) (places : Nat) :
    Numeral.Near (1 / 2 / 10 ^ places) (value x) (fixedText places x) := by
  obtain ⟨negative, m, e, hexact⟩ := Exact.isFinite_iff.mp h
  rw [fixedText, Fixed.ofFloat, hexact, Exact.value_of_finite hexact]
  exact ⟨_, Numeral.value?_signed_pointed _ _ _,
    Decimal.abs_value_sub_le negative _ (Nat.two_pow_pos _) places⟩

theorem numerator_eq_of_magnitude {m n : Nat} {e : Int} (h : magnitude m e = n) :
    Exact.numerator m e = n * Exact.denominator e := by
  have hden : (0 : ℚ) < Exact.denominator e := by exact_mod_cast Nat.two_pow_pos _
  rw [magnitude_eq_div, div_eq_iff hden.ne'] at h
  exact_mod_cast h

/-- A double that is a whole number above zero reads back as itself, however large it is. -/
theorem Fixed.toFloat?_ofFloat_of_value {x : Float} {n : Nat} (hn : 0 < n) (h : value x = n)
    (places : Nat) : (ofFloat places x).toFloat? = some x := by
  have hpositive : (0 : ℚ) < value x := by
    rw [h]
    exact_mod_cast hn
  cases hx : x.toModel.unpack with
  | notANumber | infinity s | zero s => simp [value, hx] at hpositive
  | finite s m e hm =>
    obtain ⟨hcanonical, he⟩ := Double.canonical_of_unpack hx
    rw [Double.value_of_unpack hx] at h hpositive
    cases s with
    | negative =>
      have hmagnitude := Double.magnitude_pos hm e
      rw [Double.signed] at hpositive
      linarith
    | positive =>
      have hexact : Exact.ofFloat x = .finite false m e := by rw [Exact.ofFloat, hx]; rfl
      have hunits : roundDiv (Exact.numerator m e * Nat.pow 10 places) (Exact.denominator e) =
          n * 10 ^ places := by
        rw [numerator_eq_of_magnitude h, Nat.mul_right_comm]
        exact roundDiv_mul _ (Nat.two_pow_pos _)
      have hvalue : ((n * 10 ^ places : Nat) : ℚ) * 10 ^ (-(places : Int)) = magnitude m e := by
        rw [zpow_neg, zpow_natCast, Nat.cast_mul, Nat.cast_pow, Nat.cast_ofNat,
          mul_inv_cancel_right₀ (by positivity)]
        exact h.symm
      rw [ofFloat, hexact]
      dsimp only
      rw [hunits]
      refine congrArg some (Double.unpack_inj ?_)
      rw [Decimal.unpack_toFloat_exact hm hcanonical he hvalue, hx]

end PrinterShadow
