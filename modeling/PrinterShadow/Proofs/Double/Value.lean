import PrinterShadow.Proofs.Double.Nearest
import PrinterShadow.Proofs.Double.Whole

/-!
The number that a double stands for, and its whole part: cut off toward zero, and kept within the
integers of 32 bits. Finite doubles are ordered as their numbers are.
-/

namespace PrinterShadow

namespace Double

open Float.Model (UnpackedFloat)
open Float.Model.UnpackedFloat hiding unpack pack round normalize

def signed (s : Sign) (q : ℚ) : ℚ :=
  match s with
  | .negative => -q
  | .positive => q

/-- The number that a double stands for; zero where it is not finite. -/
def value (x : Float) : ℚ :=
  match x.toModel.unpack with
  | .finite s m e _ => signed s (magnitude m e)
  | _ => 0

theorem value_of_unpack {x : Float} {s : Sign} {m : Nat} {e : Int} {hm : 0 < m}
    (h : x.toModel.unpack = .finite s m e hm) : value x = signed s (magnitude m e) := by
  rw [value, h]

theorem value_of_zero {x : Float} {s : Sign} (h : x.toModel.unpack = .zero s) : value x = 0 := by
  rw [value, h]

/-- The integer of 32 bits that is nearest. -/
def saturate (a : Int) : Int := max (-2147483648) (min a 2147483647)

theorem toInt_ofIntClamp (a : Int) : (Int32.ofIntClamp a).toInt = saturate a := by
  have hmin : Int32.minValue.toInt = -2147483648 := by decide
  have hmax : Int32.maxValue.toInt = 2147483647 := by decide
  unfold Int32.ofIntClamp saturate
  split
  · split
    · rw [Int32.toInt_ofIntLE]
      omega
    · omega
  · omega

/-- The whole part of a number, toward zero. -/
def truncate (q : ℚ) : Int := if q < 0 then ⌈q⌉ else ⌊q⌋

theorem truncate_neg (q : ℚ) : truncate (-q) = -truncate q := by
  unfold truncate
  rcases lt_trichotomy q 0 with hneg | rfl | hpos
  · rw [if_neg (by linarith), if_pos hneg, Int.floor_neg]
  · simp
  · rw [if_pos (by linarith), if_neg (by linarith), Int.ceil_neg]

theorem magnitude_eq_div (m : Nat) (e : Int) :
    magnitude m e = (Exact.numerator m e : ℚ) / (Exact.denominator e : ℚ) := by
  rcases Int.eq_nat_or_neg e with ⟨n, rfl | rfl⟩
  · have hnum : Exact.numerator m n = m * 2 ^ n := rfl
    have hden : Exact.denominator n = 1 := by
      rw [Exact.denominator, show (-(n : Int)).toNat = 0 by omega]
    rw [hnum, hden, magnitude, zpow_natCast, Nat.cast_one, div_one]
    push_cast
    rfl
  · rw [Exact.numerator_neg, Exact.denominator_neg, magnitude, zpow_neg, zpow_natCast]
    push_cast
    rfl

theorem truncate_magnitude (m : Nat) (e : Int) :
    truncate (magnitude m e) = (Exact.numerator m e / Exact.denominator e : Nat) := by
  rw [truncate, if_neg (not_lt.mpr (magnitude_nonneg m e)), magnitude_eq_div,
    Rat.floor_natCast_div_natCast]
  rfl

/-- The whole part of a double as an integer of 32 bits: infinities go to the ends, and what is no
number to zero. -/
def truncated (x : Float) : Int :=
  if x.isFinite then saturate (truncate (value x))
  else if 0 < x then 2147483647
  else if x < 0 then -2147483648
  else 0

theorem toInt_wholePart (x : Float) : (wholePart x).toInt = truncated x := by
  have hzero : (0 : Float).toModel.unpack = .zero .positive := by rfl
  have hfinite : x.isFinite = x.toModel.unpack.isFinite := rfl
  simp only [truncated, lt_iff_compare, hzero, hfinite, value, wholePart, Exact.ofFloat]
  generalize x.toModel.unpack = x
  rcases x with ⟨_ | _⟩ | _ | ⟨_ | _⟩ | ⟨s, m, e, hm⟩
  · decide
  · decide
  · decide
  · decide
  · decide
  · have htruncate := truncate_magnitude m e
    cases s with
    | negative =>
      change (Int32.ofIntClamp (-(_ : Nat))).toInt = saturate (truncate (-magnitude m e))
      rw [toInt_ofIntClamp, truncate_neg, htruncate]
    | positive =>
      change (Int32.ofIntClamp (_ : Nat)).toInt = saturate (truncate (magnitude m e))
      rw [toInt_ofIntClamp, htruncate]

/-! ## The order -/

theorem Canonical.magnitude_lt_magnitude_iff {m m' : Nat} {e e' : Int} (h : Canonical m e)
    (h' : Canonical m' e') : magnitude m e < magnitude m' e' ↔ e < e' ∨ e = e' ∧ m < m' := by
  refine ⟨fun hlt => ?_, h.magnitude_lt h'⟩
  by_contra hnot
  by_cases hsame : e' = e ∧ m' = m
  · obtain ⟨rfl, rfl⟩ := hsame
    exact absurd hlt (not_lt.mpr le_rfl)
  · exact lt_asymm hlt (h'.magnitude_lt h (by omega))

/-- Finite doubles are ordered as the numbers that they stand for. -/
theorem lt_iff_value {x y : Float} (hx : x.isFinite) (hy : y.isFinite) :
    x < y ↔ value x < value y := by
  rw [lt_iff_rank (ne_nan_of_isFinite hx) (ne_nan_of_isFinite hy)]
  change x.toModel.unpack.isFinite = true at hx
  change y.toModel.unpack.isFinite = true at hy
  have hform {z : Float} {s : Sign} {m : Nat} {e : Int} {hm : 0 < m}
      (hz : z.toModel.unpack = .finite s m e hm) : Canonical m e ∧ 0 < magnitude m e :=
    ⟨(canonical_of_unpack hz).1, magnitude_pos hm e⟩
  cases hxu : x.toModel.unpack with
  | notANumber | infinity s => rw [hxu] at hx; nomatch hx
  | zero s =>
    rw [value_of_zero hxu]
    cases hyu : y.toModel.unpack with
    | notANumber | infinity t => rw [hyu] at hy; nomatch hy
    | zero t => simp [value_of_zero hyu, rank]
    | finite t n f hn =>
      obtain ⟨-, hpos⟩ := hform hyu
      rw [value_of_unpack hyu]
      cases t <;> simp [rank, signed, Prod.Lex.toLex_lt_toLex, hpos, hpos.le]
  | finite s m e hm =>
    obtain ⟨hcx, hpos⟩ := hform hxu
    rw [value_of_unpack hxu]
    cases hyu : y.toModel.unpack with
    | notANumber | infinity t => rw [hyu] at hy; nomatch hy
    | zero t =>
      rw [value_of_zero hyu]
      cases s <;> simp [rank, signed, Prod.Lex.toLex_lt_toLex, hpos, hpos.le]
    | finite t n f hn =>
      obtain ⟨hcy, hpos'⟩ := hform hyu
      have hlt := hcx.magnitude_lt_magnitude_iff hcy
      have hgt := hcy.magnitude_lt_magnitude_iff hcx
      rw [value_of_unpack hyu]
      cases s <;> cases t <;>
        simp only [rank, signed, Prod.Lex.toLex_lt_toLex, lt_self_iff_false, false_or, true_and,
          neg_lt_neg_iff, neg_inj, Nat.cast_lt]
      · rw [hgt, eq_comm]
      · exact iff_of_true (.inl (by decide)) (by linarith)
      · exact iff_of_false (by omega) (by linarith)
      · exact hlt.symm

theorem le_iff_value {x y : Float} (hx : x.isFinite) (hy : y.isFinite) :
    x ≤ y ↔ value x ≤ value y := by
  rw [← not_lt, ← lt_iff_value hy hx]
  exact ⟨not_lt_of_le, le_of_not_lt (ne_nan_of_isFinite hy) (ne_nan_of_isFinite hx)⟩

end Double

end PrinterShadow
