import PrinterShadow.Proofs.Decimal.Reading
import PrinterShadow.Proofs.Double.Scientific

/-!
A decimal is read as the nearest double. Of two that are as near it is the one with the even
mantissa, and from half a unit beyond the greatest double on it is infinity. The sign is kept, by
zero and infinity too.
-/

namespace PrinterShadow

namespace Double

open Float.Model (UnpackedFloat)
open Float.Model.UnpackedFloat hiding unpack pack round normalize

/-! ## Up to where doubles reach -/

theorem magnitude_greatest : magnitude (2 ^ 53 - 1) 971 = 2 ^ 1024 - 2 * 2 ^ 970 := by
  have hmantissa : ((2 ^ 53 - 1 : Nat) : ℚ) = 2 ^ 53 - 1 := by norm_num
  have hunit : (2 : ℚ) ^ 971 = 2 * 2 ^ 970 := by rw [← pow_succ']
  have hbeyond : (2 : ℚ) ^ 1024 = 2 ^ 53 * 2 ^ 971 := by rw [← pow_add]
  rw [magnitude, hmantissa, show (971 : Int) = (971 : Nat) by rfl, zpow_natCast, hbeyond, hunit]
  generalize (2 : ℚ) ^ 970 = u
  ring

theorem Canonical.le_greatest {m : Nat} {e : Int} (h : Canonical m e) (he : e ≤ 971) :
    magnitude m e ≤ magnitude (2 ^ 53 - 1) 971 := by
  refine mul_le_mul ?_ (zpow_le_zpow_right₀ one_le_two he) (by positivity) (by positivity)
  exact_mod_cast Nat.le_sub_one_of_lt h.lt

/-- What is below half a unit beyond the greatest double, and nothing else, is rounded to a form
that a double has. -/
theorem Nearest.le_iff {q : ℚ} {m : Nat} {e : Int} (h : Nearest q m e) :
    e ≤ 971 ↔ q < 2 ^ 1024 - 2 ^ 970 := by
  have hgreatest : Canonical (2 ^ 53 - 1) 971 := by decide
  have hbeyond : Canonical (2 ^ 52) 972 := by decide
  have hvalue : magnitude (2 ^ 52) 972 = 2 ^ 1024 := magnitude_beyond
  have hunit : (0 : ℚ) < 2 ^ 970 := by positivity
  have hlt_iff : magnitude m e < 2 ^ 1024 ↔ e ≤ 971 := h.canonical.magnitude_lt_iff
  have hnear := h.near hgreatest
  have hnear' := h.near hbeyond
  have htie := h.even hbeyond
  rw [magnitude_greatest] at hnear
  rw [hvalue] at hnear' htie
  constructor
  · intro he
    have hlt := hlt_iff.mpr he
    have hle := h.canonical.le_greatest he
    have hodd (hm : magnitude m e = 2 ^ 1024 - 2 * 2 ^ 970) : ¬ Even m := by
      obtain ⟨rfl, -⟩ := h.canonical.unique hgreatest (hm.trans magnitude_greatest.symm)
      decide
    rw [magnitude_greatest] at hle
    generalize (2 : ℚ) ^ 1024 = b at *
    generalize (2 : ℚ) ^ 970 = u at *
    by_contra hge
    rw [abs_of_neg (a := magnitude m e - q) (by linarith)] at hnear' htie
    rcases abs_cases (b - q) with ⟨heq, -⟩ | ⟨heq, -⟩ <;> rw [heq] at hnear' htie
    · -- half a unit beyond the greatest double, which is odd
      exact hodd (by linarith) (htie (by linarith) (by linarith))
    · linarith
  · intro hlt
    rw [← hlt_iff]
    generalize (2 : ℚ) ^ 1024 = b at *
    generalize (2 : ℚ) ^ 970 = u at *
    by_contra hge
    rw [abs_of_pos (by linarith)] at hnear
    rcases abs_cases (b - 2 * u - q) with ⟨heq, -⟩ | ⟨heq, -⟩ <;> rw [heq] at hnear <;> linarith

/-! ## The nearest double -/

def EvenMantissa (x : Float) : Prop :=
  match x.toModel.unpack with
  | .finite _ m _ _ => Even m
  | _ => True

/-- A double without a minus sign is what a magnitude is rounded to: a finite one below half a unit
beyond the greatest double and infinity from there on, no finite double is nearer, and where another
one is as near the mantissa is even. -/
structure RoundsTo (q : ℚ) (x : Float) : Prop where
  unsigned : Unsigned x
  ne_nan : x ≠ .nan
  isFinite_iff : x.isFinite ↔ q < 2 ^ 1024 - 2 ^ 970
  near {y : Float} (hx : x.isFinite) (hy : y.isFinite) : |value x - q| ≤ |value y - q|
  even {y : Float} (hx : x.isFinite) (hy : y.isFinite) (hne : value y ≠ value x)
    (htie : |value y - q| = |value x - q|) : EvenMantissa x

theorem exists_form_of_isFinite {x : Float} (h : x.isFinite) :
    ∃ s m e, Canonical m e ∧ value x = signed s (magnitude m e) := by
  have hfinite : x.toModel.unpack.isFinite := h
  cases hx : x.toModel.unpack with
  | finite s m e hm => exact ⟨s, m, e, (canonical_of_unpack hx).1, value_of_unpack hx⟩
  | zero s =>
    refine ⟨.positive, 0, -1074, by decide, ?_⟩
    rw [value_of_zero hx, signed, magnitude_zero]
  | infinity s | notANumber =>
    rw [hx] at hfinite
    exact absurd hfinite Bool.false_ne_true

theorem abs_sub_le_abs_signed_sub {a q : ℚ} (ha : 0 ≤ a) (hq : 0 ≤ q) (s : Sign) :
    |a - q| ≤ |signed s a - q| := by
  cases s with
  | positive => exact le_rfl
  | negative =>
    rw [signed, abs_of_nonpos (by linarith : -a - q ≤ 0), abs_le]
    constructor <;> linarith

theorem of_unpack_eq_assemble {x : Float} {m : Nat} {e : Int}
    (h : x.toModel.unpack = assemble .positive m e) :
    Unsigned x ∧ x.isFinite ∧ value x = magnitude m e ∧ (Even m → EvenMantissa x) := by
  have hfinite : x.isFinite = x.toModel.unpack.isFinite := rfl
  rw [Unsigned, hfinite, EvenMantissa]
  rcases Nat.eq_zero_or_pos m with rfl | hm
  · have hzero : x.toModel.unpack = .zero .positive := h
    rw [hzero, value_of_zero hzero, magnitude_zero]
    exact ⟨rfl, rfl, rfl, fun _ => trivial⟩
  · rw [assemble_pos .positive e hm] at h
    rw [h, value_of_unpack h]
    exact ⟨rfl, rfl, rfl, id⟩

/-- Of the two doubles with a form, the one without a minus sign is as near as the other; and where
the other is as near as the nearest form, the mantissa of that is even. -/
theorem Nearest.near_signed {q : ℚ} {m : Nat} {e : Int} (h : Nearest q m e) (hq : 0 ≤ q) (s : Sign)
    {m' : Nat} {e' : Int} (h' : Canonical m' e') :
    |magnitude m e - q| ≤ |signed s (magnitude m' e') - q| ∧
      (signed s (magnitude m' e') ≠ magnitude m e →
        |signed s (magnitude m' e') - q| = |magnitude m e - q| → Even m) := by
  have hnonneg := magnitude_nonneg m' e'
  have hnear := h.near h'
  have hsigned := abs_sub_le_abs_signed_sub hnonneg hq s
  refine ⟨hnear.trans hsigned, fun hne htie => ?_⟩
  have htie' : |magnitude m' e' - q| = |magnitude m e - q| :=
    le_antisymm (hsigned.trans htie.le) hnear
  by_cases heq : magnitude m' e' = magnitude m e
  · -- the other double is the same one with a minus sign, and zero is no farther
    exfalso
    have hzero : Canonical 0 (-1074) := by decide
    have hnear' := h.near hzero
    rw [magnitude_zero, zero_sub, abs_neg, abs_of_nonneg hq] at hnear'
    rw [heq] at hne htie hnonneg
    cases s with
    | positive => exact hne rfl
    | negative =>
      rw [signed, abs_of_nonpos (by linarith)] at htie
      rw [signed] at hne
      exact hne (by linarith)
  · exact h.even h' heq htie'

/-- The double with the nearest form is the nearest double. -/
theorem Nearest.roundsTo {q : ℚ} {m : Nat} {e : Int} (h : Nearest q m e) (hq : 0 ≤ q) {x : Float}
    (hx : x.toModel.unpack = stored (assemble .positive m e)) : RoundsTo q x := by
  rw [stored_assemble .positive h.canonical] at hx
  split_ifs at hx with he
  · obtain ⟨hunsigned, hfinite, hvalue, heven⟩ := of_unpack_eq_assemble hx
    refine ⟨hunsigned, ne_nan_of_isFinite hfinite, ⟨fun _ => h.le_iff.mp he, fun _ => hfinite⟩,
      fun {y} _ hy => ?_, fun {y} _ hy hne htie => ?_⟩
    · obtain ⟨s, m', e', hcanonical, hvalue'⟩ := exists_form_of_isFinite hy
      rw [hvalue, hvalue']
      exact (h.near_signed hq s hcanonical).1
    · obtain ⟨s, m', e', hcanonical, hvalue'⟩ := exists_form_of_isFinite hy
      rw [hvalue, hvalue'] at hne htie
      exact heven ((h.near_signed hq s hcanonical).2 hne htie)
  · have hinfinite : ¬ x.isFinite := by
      change ¬ x.toModel.unpack.isFinite
      simp [hx, isFinite]
    have hnumber : x ≠ .nan := by
      rw [Ne, ← unpack_eq_notANumber, hx]
      exact UnpackedFloat.noConfusion
    have hunsigned : Unsigned x := by
      rw [Unsigned, hx]
      rfl
    exact ⟨hunsigned, hnumber, iff_of_false hinfinite (mt h.le_iff.mpr he),
      fun hfinite => absurd hfinite hinfinite, fun hfinite => absurd hfinite hinfinite⟩

end Double

namespace Decimal

open Float.Model (UnpackedFloat)
open Double

/-- The digits of a decimal are read as the double with the nearest form. -/
theorem toFloat_nearest (n : Nat) (f : Int) :
    ∃ m e, (toFloat ⟨false, n, f⟩).toModel.unpack = stored (assemble .positive m e) ∧
      Nearest (n * 10 ^ f) m e := by
  rcases Nat.eq_zero_or_pos n with rfl | hn
  · refine ⟨0, -1074, ?_, nearest_zero (by simp) ?_⟩
    · simp only [toFloat, reduce, if_pos]
      decide +kernel
    · simp [magnitude_pos]
  · obtain ⟨k, n', hstrip, rfl, -⟩ := stripZeros_spec hn f
    have hn' : 0 < n' := Nat.pos_of_mul_pos_right hn
    have hvalue : ((n' * 10 ^ k : Nat) : ℚ) * 10 ^ f = n' * 10 ^ (f + k) := by
      rw [zpow_add₀ (by norm_num), zpow_natCast]
      push_cast
      ring
    have hread : toFloat ⟨false, n' * 10 ^ k, f⟩ =
        Float.ofScientific n' (f + k < 0) (f + k).natAbs := by
      simp only [toFloat, reduce, if_neg (Nat.ne_of_gt hn), hstrip]
      rfl
    rw [hread, hvalue]
    exact ofScientific_nearest hn' (f + k)

theorem toFloat_negative (n : Nat) (e : Int) :
    toFloat ⟨true, n, e⟩ = -toFloat ⟨false, n, e⟩ := by
  rcases Nat.eq_zero_or_pos n with rfl | hn
  · simp [toFloat, reduce]
  · simp [toFloat, reduce, Nat.ne_of_gt hn]

/-- A decimal is read as the nearest double, with its sign. -/
theorem exists_roundsTo_toFloat (d : Decimal) :
    ∃ x, RoundsTo (d.significand * 10 ^ d.exponent) x ∧
      d.toFloat = if d.negative then -x else x := by
  obtain ⟨negative, n, f⟩ := d
  obtain ⟨m, e, hunpack, hnearest⟩ := toFloat_nearest n f
  refine ⟨toFloat ⟨false, n, f⟩, hnearest.roundsTo (by positivity) hunpack, ?_⟩
  cases negative with
  | true => exact toFloat_negative n f
  | false => rfl

end Decimal

end PrinterShadow
