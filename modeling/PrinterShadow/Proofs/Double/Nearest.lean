import PrinterShadow.Proofs.Double.Order

/-!
Rounding to the nearest. A magnitude that a double can have is written in one way, with a mantissa
below `2 ^ 53` and the least exponent that allows it. A magnitude is rounded to the nearest of these,
to the one with an even mantissa where two are as near, and so never past one: what is at most one is
rounded to at most it, and what is at least one to at least it. A magnitude that a double can have is
kept, and none from the least one up is lost.
-/

namespace PrinterShadow

namespace Double

open Float.Model (Format UnpackedFloat totalExponent)
open Float.Model.UnpackedFloat hiding unpack pack round normalize

/-- The form of a magnitude that a double can have, the greatest exponent apart. -/
structure Canonical (m : Nat) (e : Int) : Prop where
  lt : m < 2 ^ 53
  least : -1074 ≤ e
  full : e = -1074 ∨ 2 ^ 52 ≤ m

instance (m : Nat) (e : Int) : Decidable (Canonical m e) :=
  decidable_of_iff (m < 2 ^ 53 ∧ -1074 ≤ e ∧ (e = -1074 ∨ 2 ^ 52 ≤ m))
    ⟨fun ⟨h, h', h''⟩ => ⟨h, h', h''⟩, fun h => ⟨h.1, h.2, h.3⟩⟩

def magnitude (m : Nat) (e : Int) : ℚ := m * 2 ^ e

theorem magnitude_nonneg (m : Nat) (e : Int) : 0 ≤ magnitude m e := by
  unfold magnitude
  positivity

@[simp]
theorem magnitude_zero (e : Int) : magnitude 0 e = 0 := by
  simp [magnitude]

theorem magnitude_pos {m : Nat} (hm : 0 < m) (e : Int) : 0 < magnitude m e := by
  unfold magnitude
  positivity

theorem magnitude_mul_two_pow (m k : Nat) (e : Int) :
    magnitude (m * 2 ^ k) e = magnitude m (e + k) := by
  rw [magnitude, magnitude, zpow_add₀ two_ne_zero, zpow_natCast]
  push_cast
  ring

theorem least_le_magnitude {m : Nat} (hm : 0 < m) {e : Int} (he : -1074 ≤ e) :
    magnitude 1 (-1074) ≤ magnitude m e := by
  refine mul_le_mul ?_ (zpow_le_zpow_right₀ one_le_two he) (by positivity) (by positivity)
  exact_mod_cast hm

/-- A sign with a mantissa and an exponent, zero where the mantissa is. -/
def assemble (s : Sign) (m : Nat) (e : Int) : UnpackedFloat :=
  if h : m = 0 then .zero s else .finite s m e (Nat.pos_of_ne_zero h)

theorem assemble_pos (s : Sign) {m : Nat} (e : Int) (hm : 0 < m) :
    assemble s m e = .finite s m e hm :=
  dif_neg (Nat.ne_of_gt hm)

theorem targetExponent_eq (n : Int) : Format.binary64.targetExponent n = max (n - 53) (-1074) := rfl

theorem Canonical.targetExponent {m : Nat} {e : Int} (h : Canonical m e) :
    Format.binary64.targetExponent (totalExponent m e) = e := by
  have hlog : m.log2 < 53 := by
    rcases Nat.eq_zero_or_pos m with rfl | hm
    · decide
    · exact (Nat.log2_lt (Nat.ne_of_gt hm)).mpr h.lt
  rw [targetExponent_eq, totalExponent]
  rcases h.full with rfl | hfull
  · omega
  · have hlog' : 52 ≤ m.log2 := (Nat.le_log2 (by omega)).mpr hfull
    have := h.least
    omega

/-- A magnitude has one form at most. -/
theorem Canonical.unique {m m' : Nat} {e e' : Int} (h : Canonical m e) (h' : Canonical m' e')
    (heq : magnitude m e = magnitude m' e') : m = m' ∧ e = e' := by
  wlog hle : e ≤ e' generalizing m m' e e'
  · exact (this h' h heq.symm (Int.le_of_not_le hle)).imp Eq.symm Eq.symm
  obtain ⟨k, rfl⟩ := Int.le.dest hle
  have hm : m = m' * 2 ^ k := by
    rw [← magnitude_mul_two_pow, magnitude, magnitude] at heq
    exact_mod_cast mul_right_cancel₀ (zpow_ne_zero e two_ne_zero) heq
  rcases Nat.eq_zero_or_pos k with rfl | hk
  · simpa using hm
  · -- a greater exponent would make the other mantissa too long
    exfalso
    have hpow : 2 ≤ 2 ^ k := Nat.le_self_pow (Nat.ne_of_gt hk) 2
    have hfull : 2 ^ 52 ≤ m' := h'.full.resolve_left (by have := h.least; omega)
    have hlong : 2 ^ 52 * 2 ≤ m' * 2 ^ k := Nat.mul_le_mul hfull hpow
    have := h.lt
    omega

/-- Of two magnitudes, the one with the lesser exponent is less, and with one exponent the one with
the lesser mantissa. -/
theorem Canonical.magnitude_lt {m m' : Nat} {e e' : Int} (h : Canonical m e) (h' : Canonical m' e')
    (hlt : e < e' ∨ e = e' ∧ m < m') : magnitude m e < magnitude m' e' := by
  rcases hlt with hlt | ⟨rfl, hlt⟩
  · have hfull : 2 ^ 52 ≤ m' := h'.full.resolve_left (by have := h.least; omega)
    have hm : (m : ℚ) < 2 ^ (53 : Int) := by exact_mod_cast h.lt
    have hm' : (2 : ℚ) ^ (52 : Int) ≤ m' := by exact_mod_cast hfull
    calc magnitude m e < 2 ^ (53 : Int) * 2 ^ e := mul_lt_mul_of_pos_right hm (by positivity)
      _ = 2 ^ (53 + e) := (zpow_add₀ two_ne_zero _ _).symm
      _ ≤ 2 ^ (52 + e') := zpow_le_zpow_right₀ one_le_two (by omega)
      _ = 2 ^ (52 : Int) * 2 ^ e' := zpow_add₀ two_ne_zero _ _
      _ ≤ magnitude m' e' := mul_le_mul_of_nonneg_right hm' (by positivity)
  · exact mul_lt_mul_of_pos_right (by exact_mod_cast hlt) (by positivity)

/-- The least magnitude beyond the doubles. -/
theorem magnitude_beyond : magnitude (2 ^ 52) 972 = 2 ^ (1024 : Int) := by
  rw [magnitude, show (1024 : Int) = 52 + 972 by rfl, zpow_add₀ two_ne_zero]
  norm_num

theorem Canonical.magnitude_lt_iff {m : Nat} {e : Int} (h : Canonical m e) :
    magnitude m e < 2 ^ (1024 : Int) ↔ e ≤ 971 := by
  have hbeyond : Canonical (2 ^ 52) 972 := by decide
  rw [← magnitude_beyond]
  constructor
  · intro hlt
    by_contra hgt
    have hfull : 2 ^ 52 ≤ m := h.full.resolve_left (by omega)
    rcases Int.lt_or_le 972 e with hlt' | hle
    · exact absurd (hbeyond.magnitude_lt h (.inl hlt')) (not_lt.mpr hlt.le)
    · obtain rfl : e = 972 := by omega
      exact absurd hlt (not_lt.mpr (mul_le_mul_of_nonneg_right (by exact_mod_cast hfull)
        (by positivity)))
  · exact fun hle => h.magnitude_lt hbeyond (.inl (by omega))

/-! ## The bits that rounding looks at -/

/-- What an extended mantissa says of the magnitude that it was cut from. -/
def Represents (em : ExtendedMantissa) (x : ℚ) : Prop :=
  match em with
  | ⟨m, false, false⟩ => x = m
  | ⟨m, false, true⟩ => m < x ∧ x < m + 1 / 2
  | ⟨m, true, false⟩ => x = m + 1 / 2
  | ⟨m, true, true⟩ => m + 1 / 2 < x ∧ x < m + 1

namespace Represents

variable {em : ExtendedMantissa} {x : ℚ}

theorem bounds (h : Represents em x) : em.mantissa ≤ x ∧ x < em.mantissa + 1 := by
  rcases em with ⟨m, _ | _, _ | _⟩ <;> dsimp only [Represents] at h ⊢
  · subst h
    constructor <;> linarith
  · constructor <;> linarith
  · subst h
    constructor <;> linarith
  · constructor <;> linarith

theorem shiftRightOne (h : Represents em x) : Represents em.shiftRightOne (x / 2) := by
  rcases em with ⟨m, r, s⟩
  obtain ⟨b, hb, hm⟩ : ∃ b : Bool, (m % 2 != 0) = b ∧ (m : ℚ) = 2 * (m / 2 : Nat) + b.toNat := by
    refine ⟨m % 2 != 0, rfl, ?_⟩
    rcases Nat.mod_two_eq_zero_or_one m with hr | hr <;> rw [hr] <;>
      exact_mod_cast (hr ▸ Nat.div_add_mod m 2).symm
  simp only [ExtendedMantissa.shiftRightOne, hb]
  cases b <;> cases r <;> cases s <;>
    simp only [Represents, Bool.toNat_true, Bool.toNat_false, Nat.cast_one, Nat.cast_zero,
      Bool.or_true, Bool.or_false] at h hm ⊢ <;>
    first | linarith | constructor <;> linarith

theorem shiftRight (h : Represents em x) (k : Nat) : Represents (em >>> k) (x / 2 ^ k) := by
  change Represents (Nat.repeat ExtendedMantissa.shiftRightOne k em) _
  induction k with
  | zero => simpa [Nat.repeat] using h
  | succ k ih =>
    rw [Nat.repeat, pow_succ, ← div_div]
    exact ih.shiftRightOne

/-- Rounding to a whole number does not pass one. -/
theorem roundedMantissa_le (h : Represents em x) {n : Nat} (hx : x ≤ n) :
    em.roundedMantissa ≤ n := by
  have hle : em.mantissa ≤ n := by exact_mod_cast h.bounds.1.trans hx
  rcases Nat.eq_or_lt_of_le hle with heq | hlt
  · -- then nothing was cut off
    rcases em with ⟨m, _ | _, _ | _⟩ <;> obtain rfl : m = n := heq <;>
      simp only [Represents] at h
    · exact Nat.le_refl _
    all_goals linarith
  · rcases em with ⟨m, _ | _, _ | _⟩ <;>
      simp only [ExtendedMantissa.roundedMantissa, ExtendedMantissa.accuracy,
        Accuracy.roundToNearestEven] at hlt ⊢ <;> omega

theorem le_roundedMantissa (h : Represents em x) {n : Nat} (hx : n ≤ x) :
    n ≤ em.roundedMantissa := by
  have hle : n ≤ em.mantissa := by
    have hlt : (n : ℚ) < em.mantissa + 1 := hx.trans_lt h.bounds.2
    exact Nat.le_of_lt_succ (by exact_mod_cast hlt)
  refine hle.trans ?_
  rcases em with ⟨m, _ | _, _ | _⟩ <;>
    simp only [ExtendedMantissa.roundedMantissa, ExtendedMantissa.accuracy,
      Accuracy.roundToNearestEven] <;> omega

theorem abs_roundedMantissa_sub_le (h : Represents em x) :
    |(em.roundedMantissa : ℚ) - x| ≤ 1 / 2 := by
  rw [abs_le]
  rcases em with ⟨m, _ | _, _ | _⟩ <;>
    simp only [Represents, ExtendedMantissa.roundedMantissa, ExtendedMantissa.accuracy,
      Accuracy.roundToNearestEven] at h ⊢
  · constructor <;> linarith
  · constructor <;> linarith
  · rcases Nat.mod_two_eq_zero_or_one m with hm | hm <;> rw [hm] <;> push_cast <;>
      constructor <;> linarith
  · push_cast
    constructor <;> linarith

theorem even_roundedMantissa (h : Represents em x)
    (hhalf : |(em.roundedMantissa : ℚ) - x| = 1 / 2) : Even em.roundedMantissa := by
  rcases em with ⟨m, _ | _, _ | _⟩ <;>
    simp only [Represents, ExtendedMantissa.roundedMantissa, ExtendedMantissa.accuracy,
      Accuracy.roundToNearestEven] at h hhalf ⊢
  · rw [h, sub_self, abs_zero] at hhalf
    norm_num at hhalf
  · rw [abs_of_neg (by linarith)] at hhalf
    linarith
  · exact Nat.even_iff.mpr (by omega)
  · push_cast at hhalf
    rw [abs_of_pos (by linarith)] at hhalf
    linarith

/-- Rounding is to the nearest whole number, and of two such to the even one. -/
theorem roundedMantissa_near (h : Represents em x) {n : Nat} (hne : n ≠ em.roundedMantissa) :
    |(em.roundedMantissa : ℚ) - x| ≤ |(n : ℚ) - x| ∧
      (|(n : ℚ) - x| = |(em.roundedMantissa : ℚ) - x| → Even em.roundedMantissa) := by
  have hle := h.abs_roundedMantissa_sub_le
  have hapart : 1 ≤ |(n : ℚ) - em.roundedMantissa| := by
    have hint : (1 : Int) ≤ |(n : Int) - em.roundedMantissa| :=
      Int.one_le_abs (sub_ne_zero.mpr (by exact_mod_cast hne))
    exact_mod_cast hint
  have htriangle : |(n : ℚ) - em.roundedMantissa| ≤
      |(n : ℚ) - x| + |(em.roundedMantissa : ℚ) - x| := by
    rw [abs_sub_comm (em.roundedMantissa : ℚ)]
    exact abs_sub_le _ _ _
  exact ⟨by linarith, fun htie => h.even_roundedMantissa (by linarith)⟩

end Represents

theorem represents_exact (m : Nat) :
    Represents (ExtendedMantissa.ofMantissaAndAccuracy m .exact) m := rfl

/-! ## The law -/

/-- A form is what a magnitude may be rounded to. -/
structure Rounds (q : ℚ) (m : Nat) (e : Int) : Prop where
  canonical : Canonical m e
  le {m' : Nat} {e' : Int} (h : Canonical m' e') (hq : q ≤ magnitude m' e') :
    magnitude m e ≤ magnitude m' e'
  ge {m' : Nat} {e' : Int} (h : Canonical m' e') (hq : magnitude m' e' ≤ q) :
    magnitude m' e' ≤ magnitude m e

/-- A magnitude that a double can have is kept. -/
theorem Rounds.exact {m m' : Nat} {e e' : Int} (h' : Canonical m' e')
    (h : Rounds (magnitude m' e') m e) : m = m' ∧ e = e' :=
  h.canonical.unique h' (le_antisymm (h.le h' le_rfl) (h.ge h' le_rfl))

/-- What is not below the least magnitude is not rounded to zero. -/
theorem Rounds.pos {q : ℚ} {m : Nat} {e : Int} (h : Rounds q m e) (hq : magnitude 1 (-1074) ≤ q) :
    0 < m := by
  have hleast : Canonical 1 (-1074) := by decide
  have hge := h.ge hleast hq
  have hone : 0 < magnitude 1 (-1074) := magnitude_pos Nat.one_pos _
  refine Nat.pos_of_ne_zero fun hzero => ?_
  rw [hzero, magnitude_zero] at hge
  exact absurd hge (not_le.mpr hone)

/-- A form is nearest to a magnitude, and where another one is as near, its mantissa is even. -/
structure Nearest (q : ℚ) (m : Nat) (e : Int) : Prop where
  canonical : Canonical m e
  near {m' : Nat} {e' : Int} (h : Canonical m' e') :
    |magnitude m e - q| ≤ |magnitude m' e' - q|
  even {m' : Nat} {e' : Int} (h : Canonical m' e') (hne : magnitude m' e' ≠ magnitude m e)
    (htie : |magnitude m' e' - q| = |magnitude m e - q|) : Even m

theorem Nearest.rounds {q : ℚ} {m : Nat} {e : Int} (h : Nearest q m e) : Rounds q m e where
  canonical := h.canonical
  le {m' e'} h' hq := by
    by_contra hlt
    have hnear := h.near h'
    rw [abs_of_nonneg (by linarith), abs_of_nonneg (by linarith)] at hnear
    linarith
  ge {m' e'} h' hq := by
    by_contra hlt
    have hnear := h.near h'
    rw [abs_of_nonpos (by linarith), abs_of_nonpos (by linarith)] at hnear
    linarith

theorem shiftToTargetExponent_canonical {m : Nat} {e : Int} (h : Canonical m e) :
    shiftToTargetExponent .binary64 m e .exact = (⟨m, false, false⟩, e) := by
  rw [shiftToTargetExponent, h.targetExponent, shiftToExponent, Int.sub_self]
  exact Prod.ext rfl (Int.add_zero e)

/-- A carry out of the mantissa is taken up by the exponent. -/
theorem shiftToTargetExponent_carry {e : Int} (he : -1074 ≤ e) :
    shiftToTargetExponent .binary64 (2 ^ 53) e .exact = (⟨2 ^ 52, false, false⟩, e + 1) := by
  have htarget : Format.binary64.targetExponent (totalExponent (2 ^ 53) e) = e + 1 := by
    rw [targetExponent_eq, totalExponent, Nat.log2_two_pow]
    omega
  rw [shiftToTargetExponent, htarget, shiftToExponent,
    show (e + 1 - e).toNat = 1 by omega]
  exact Prod.ext (shiftRight_exact (2 ^ 52) 1 :) rfl

/-- The magnitude that is rounded, against the exponent that its mantissa is cut to: it takes no
more than 53 bits there, and no fewer than 53 where that exponent is not the least one. -/
theorem scaled_bounds {m : Nat} {e : Int} {x : ℚ} (hx : (m : ℚ) ≤ x ∧ x < m + 1) {k : Nat}
    (hk : Format.binary64.targetExponent (totalExponent m e) = e + k) :
    x / 2 ^ k < 2 ^ 53 ∧ (e + k = -1074 ∨ 2 ^ 52 ≤ x / 2 ^ k) := by
  rw [targetExponent_eq, totalExponent] at hk
  have hpow : (0 : ℚ) < 2 ^ k := by positivity
  constructor
  · rw [div_lt_iff₀ hpow, ← pow_add]
    have hm : m + 1 ≤ 2 ^ (53 + k) :=
      Nat.lt_log2_self.trans_le (Nat.pow_le_pow_right (by decide) (by omega))
    exact hx.2.trans_le (by exact_mod_cast hm)
  · refine or_iff_not_imp_left.mpr fun hleast => ?_
    have hm : m ≠ 0 := by
      rintro rfl
      rw [Nat.log2_zero] at hk
      omega
    rw [le_div_iff₀ hpow, ← pow_add]
    have hm' : 2 ^ (52 + k) ≤ m :=
      (Nat.pow_le_pow_right (by decide) (by omega)).trans (Nat.log2_self_le hm)
    exact le_trans (by exact_mod_cast hm') hx.1

/-- Rounding to whole multiples of a power of two keeps to the forms, of which none lies between two
such multiples. -/
theorem nearest_of_represents {em : ExtendedMantissa} {x : ℚ} {t : Int} (h : Represents em x)
    (hfull : t = -1074 ∨ 2 ^ 52 ≤ x) {m : Nat} {e : Int} (hcanonical : Canonical m e)
    (heq : magnitude m e = magnitude em.roundedMantissa t)
    (heven : Even em.roundedMantissa → Even m) : Nearest (x * 2 ^ t) m e := by
  have hpos (n : Int) : (0 : ℚ) < 2 ^ n := by positivity
  have hdistance (n : Nat) : |magnitude n t - x * 2 ^ t| = |(n : ℚ) - x| * 2 ^ t := by
    rw [magnitude, ← sub_mul, abs_mul, abs_of_pos (hpos t)]
  have hnear (n : Nat) : |magnitude m e - x * 2 ^ t| ≤ |magnitude n t - x * 2 ^ t| := by
    rw [heq]
    by_cases hne : n = em.roundedMantissa
    · rw [hne]
    · rw [hdistance, hdistance]
      exact mul_le_mul_of_nonneg_right (h.roundedMantissa_near hne).1 (hpos t).le
  have hscale {m' : Nat} {e' : Int} (hle : t ≤ e') :
      magnitude m' e' = magnitude (m' * 2 ^ (e' - t).toNat) t := by
    rw [magnitude_mul_two_pow, show t + (e' - t).toNat = e' by omega]
  -- a form with a lesser exponent is below everything that is rounded here
  have hbelow {m' : Nat} {e' : Int} (h' : Canonical m' e') (hlt : e' < t) :
      |magnitude m e - x * 2 ^ t| < |magnitude m' e' - x * 2 ^ t| := by
    have hx : (2 : ℚ) ^ 52 ≤ x := hfull.resolve_left (by have := h'.least; omega)
    have hm : (m' : ℚ) < 2 ^ (53 : Int) := by exact_mod_cast h'.lt
    have hsmall : magnitude m' e' < magnitude (2 ^ 52) t := by
      calc magnitude m' e' < 2 ^ (53 : Int) * 2 ^ e' := mul_lt_mul_of_pos_right hm (hpos e')
        _ = 2 ^ (53 + e') := (zpow_add₀ two_ne_zero _ _).symm
        _ ≤ 2 ^ (52 + t) := zpow_le_zpow_right₀ one_le_two (by omega)
        _ = magnitude (2 ^ 52) t := by rw [zpow_add₀ two_ne_zero, magnitude]; norm_num
    have hlarge : magnitude (2 ^ 52) t ≤ x * 2 ^ t :=
      mul_le_mul_of_nonneg_right (by exact_mod_cast hx) (hpos t).le
    refine (hnear (2 ^ 52)).trans_lt ?_
    rw [abs_of_nonpos (by linarith), abs_of_neg (by linarith)]
    linarith
  refine ⟨hcanonical, fun {m' e'} h' => ?_, fun {m' e'} h' hne htie => ?_⟩
  · rcases Int.lt_or_le e' t with hlt | hle
    · exact (hbelow h' hlt).le
    · rw [hscale hle]
      exact hnear _
  · rcases Int.lt_or_le e' t with hlt | hle
    · exact absurd htie (hbelow h' hlt).ne'
    · rw [hscale hle, heq] at hne htie
      rw [hdistance, hdistance] at htie
      have hne' : m' * 2 ^ (e' - t).toNat ≠ em.roundedMantissa := fun h => hne (by rw [h])
      have htie' := mul_right_cancel₀ (hpos t).ne' htie
      exact heven ((h.roundedMantissa_near hne').2 htie')

/-- What rounding gives, where the mantissa has no bit too few. -/
theorem exists_roundWithAccuracy (s : Sign) {m : Nat} {e : Int} {acc : Accuracy} {q : ℚ}
    (h : Represents (.ofMantissaAndAccuracy m acc) (q / 2 ^ e))
    (he : e ≤ Format.binary64.targetExponent (totalExponent m e)) :
    ∃ m' e', roundWithAccuracy .binary64 s m e acc = assemble s m' e' ∧ Nearest q m' e' := by
  obtain ⟨k, hk⟩ := Int.le.dest he
  have hbounds : (m : ℚ) ≤ q / 2 ^ e ∧ q / 2 ^ e < m + 1 := by
    have hmantissa : (ExtendedMantissa.ofMantissaAndAccuracy m acc).mantissa = m := by
      rcases acc with _ | _ | _ | _ <;> rfl
    have := h.bounds
    rwa [hmantissa] at this
  obtain ⟨hlt, hfull⟩ := scaled_bounds hbounds hk.symm
  have hleast : -1074 ≤ e + k := hk ▸ le_max_right _ _
  have hshifted := h.shiftRight k
  set em := ExtendedMantissa.ofMantissaAndAccuracy m acc >>> k with hem
  have hq : q / 2 ^ e / 2 ^ k * 2 ^ (e + k) = q := by
    rw [zpow_add₀ two_ne_zero, zpow_natCast]
    field_simp
  have hfirst : shiftToTargetExponent .binary64 m e acc = (em, e + k) := by
    rw [shiftToTargetExponent, ← hk, shiftToExponent, show (e + k - e).toNat = k by omega]
  have hrounded : em.roundedMantissa ≤ 2 ^ 53 :=
    hshifted.roundedMantissa_le (by exact_mod_cast hlt.le)
  have hlong : e + k = -1074 ∨ 2 ^ 52 ≤ em.roundedMantissa :=
    hfull.imp_right fun hx => hshifted.le_roundedMantissa (by exact_mod_cast hx)
  have hresult {m' : Nat} {e' : Int} (hcanonical : Canonical m' e')
      (heq : magnitude m' e' = magnitude em.roundedMantissa (e + k))
      (heven : Even em.roundedMantissa → Even m')
      (hsecond : shiftToTargetExponent .binary64 em.roundedMantissa (e + k) .exact =
        (⟨m', false, false⟩, e')) :
      roundWithAccuracy .binary64 s m e acc = assemble s m' e' ∧ Nearest q m' e' := by
    refine ⟨?_, hq ▸ nearest_of_represents hshifted hfull hcanonical heq heven⟩
    simp only [roundWithAccuracy, hfirst, hsecond, assemble]
  rcases Nat.eq_or_lt_of_le hrounded with hcarry | hfits
  · refine ⟨2 ^ 52, e + k + 1, hresult ⟨by decide, by omega, .inr le_rfl⟩ ?_ (fun _ => ?_) ?_⟩
    · rw [hcarry, show 2 ^ 53 = 2 ^ 52 * 2 ^ 1 by rfl, magnitude_mul_two_pow]
      rfl
    · exact Nat.even_pow.mpr ⟨even_two, by decide⟩
    · rw [hcarry]
      exact shiftToTargetExponent_carry hleast
  · have hcanonical : Canonical em.roundedMantissa (e + k) := ⟨hfits, hleast, hlong⟩
    exact ⟨_, _, hresult hcanonical rfl id (shiftToTargetExponent_canonical hcanonical)⟩

theorem totalExponent_shift {m : Nat} (hm : 0 < m) (k : Nat) (e : Int) :
    totalExponent (m * 2 ^ k) (e - k) = totalExponent m e := by
  rw [totalExponent, totalExponent, log2_mul_two_pow hm]
  omega

theorem exists_round (s : Sign) {m : Nat} (hm : 0 < m) (e : Int) :
    ∃ m' e', UnpackedFloat.round .binary64 s m e = assemble s m' e' ∧
      Nearest (magnitude m e) m' e' := by
  set t := Format.binary64.targetExponent (totalExponent m e) with ht
  set k := (e - t).toNat with hk
  have hround : UnpackedFloat.round .binary64 s m e =
      roundWithAccuracy .binary64 s (m * 2 ^ k) (e - k) .exact := by
    simp only [UnpackedFloat.round, decreaseExponent, ← ht, ← hk, Nat.shiftLeft_eq]
  have hscaled : magnitude m e = magnitude (m * 2 ^ k) (e - k) := by
    rw [magnitude_mul_two_pow, Int.sub_add_cancel]
  rw [hround, hscaled]
  refine exists_roundWithAccuracy s ?_ ?_
  · rw [magnitude, mul_div_cancel_right₀ _ (zpow_ne_zero _ two_ne_zero)]
    exact represents_exact _
  · rw [totalExponent_shift hm, ← ht]
    omega

/-! ## Sums, products and quotients -/

theorem magnitude_shiftLeft (m : Nat) {e f : Int} (h : f ≤ e) :
    magnitude (m <<< (e - f).toNat) f = magnitude m e := by
  have hexp : f + (e - f).toNat = e := by omega
  rw [Nat.shiftLeft_eq, magnitude_mul_two_pow, hexp]

theorem exists_add {m n : Nat} (e f : Int) (hm : 0 < m) (hn : 0 < n) :
    ∃ m' e', add .binary64 (.finite .positive m e hm) (.finite .positive n f hn) =
      assemble .positive m' e' ∧ Nearest (magnitude m e + magnitude n f) m' e' := by
  have hsum : magnitude (m <<< (e - min e f).toNat + n <<< (f - min e f).toNat) (min e f) =
      magnitude m e + magnitude n f := by
    rw [← magnitude_shiftLeft m (min_le_left e f), ← magnitude_shiftLeft n (min_le_right e f),
      magnitude, magnitude, magnitude, ← add_mul, Nat.cast_add]
  have hpos : 0 < m <<< (e - min e f).toNat + n <<< (f - min e f).toNat := by
    rw [Nat.shiftLeft_eq]
    positivity
  obtain ⟨m', e', hround, hnearest⟩ := exists_round .positive hpos (min e f)
  refine ⟨m', e', Eq.trans ?_ hround, hsum ▸ hnearest⟩
  change UnpackedFloat.normalize .binary64 (((m <<< (e - min e f).toNat : Nat) : Int) +
    (n <<< (f - min e f).toNat : Nat)) (min e f) .positive = _
  rw [UnpackedFloat.normalize, ← Int.natCast_add, Int.compare_eq_gt.mpr (by exact_mod_cast hpos)]
  rfl

theorem exists_mul (s t : Sign) {m n : Nat} {e f : Int} (hm : 0 < m) (hn : 0 < n)
    (h : 2 ^ 52 ≤ m * n ∨ e + f ≤ -1074) :
    ∃ m' e', mul .binary64 (.finite s m e hm) (.finite t n f hn) = assemble (s * t) m' e' ∧
      Nearest (magnitude m e * magnitude n f) m' e' := by
  refine exists_roundWithAccuracy (s * t) ?_ ?_
  · have hq : magnitude m e * magnitude n f / 2 ^ (e + f) = (m * n : Nat) := by
      rw [magnitude, magnitude, zpow_add₀ two_ne_zero]
      push_cast
      field_simp
    rw [hq]
    exact represents_exact _
  · rw [targetExponent_eq, totalExponent]
    rcases h with h | h
    · have hlog : 52 ≤ (m * n).log2 := (Nat.le_log2 (by positivity)).mpr h
      omega
    · omega

theorem represents_fraction (m : Nat) {n : Nat} (hn : 0 < n) :
    Represents (.ofMantissaAndAccuracy (m / n) (accuracyOfFraction (m % n) n)) (m / n : ℚ) := by
  have hpos : (0 : ℚ) < n := by exact_mod_cast hn
  have hsplit : (m / n : ℚ) = (m / n : Nat) + (m % n : Nat) / (n : ℚ) := by
    rw [div_eq_iff hpos.ne', add_mul, div_mul_cancel₀ _ hpos.ne', mul_comm]
    exact_mod_cast (Nat.div_add_mod m n).symm
  have hlt : ((m % n : Nat) : ℚ) < n := by exact_mod_cast Nat.mod_lt m hn
  rw [hsplit]
  unfold accuracyOfFraction
  generalize m % n = r at hlt ⊢
  split_ifs with hzero
  · subst hzero
    simp [ExtendedMantissa.ofMantissaAndAccuracy, Represents]
  · have hr : (0 : ℚ) < r := by exact_mod_cast Nat.pos_of_ne_zero hzero
    cases hcompare : compare (2 * r) n with
    | lt =>
      have hhalf : (2 * r : ℚ) < n := by exact_mod_cast Nat.compare_eq_lt.mp hcompare
      refine ⟨lt_add_of_pos_right _ (by positivity), add_lt_add_right ?_ _⟩
      rw [div_lt_div_iff₀ hpos two_pos]
      linarith
    | eq =>
      have hhalf : (2 * r : ℚ) = n := by exact_mod_cast Nat.compare_eq_eq.mp hcompare
      change _ = _
      rw [← hhalf]
      field_simp
    | gt =>
      have hhalf : (n : ℚ) < 2 * r := by exact_mod_cast Nat.compare_eq_gt.mp hcompare
      refine ⟨add_lt_add_right ?_ _, add_lt_add_right ?_ _⟩
      · rw [div_lt_div_iff₀ two_pos hpos]
        linarith
      · rwa [div_lt_one hpos]

/-- The magnitude of a double is at least `2 ^ (n - 1)` and below `2 ^ n`. -/
theorem magnitude_bounds {m : Nat} (hm : 0 < m) (e : Int) :
    2 ^ (totalExponent m e - 1) ≤ magnitude m e ∧ magnitude m e < 2 ^ totalExponent m e := by
  have hpos : (0 : ℚ) < 2 ^ e := by positivity
  rw [totalExponent, magnitude, zpow_add₀ two_ne_zero (_ : Int) e,
    show (m.log2 : Int) + 1 + e - 1 = m.log2 + e by ring, zpow_add₀ two_ne_zero,
    mul_le_mul_iff_left₀ hpos, mul_lt_mul_iff_left₀ hpos]
  refine ⟨?_, ?_⟩
  · exact_mod_cast Nat.log2_self_le (Nat.ne_of_gt hm)
  · exact_mod_cast Nat.lt_log2_self

theorem exists_div (s t : Sign) {m n : Nat} (e f : Int) (hm : 0 < m) (hn : 0 < n) :
    ∃ m' e', div .binary64 (.finite s m e hm) (.finite t n f hn) = assemble (s / t) m' e' ∧
      Nearest (magnitude m e / magnitude n f) m' e' := by
  set d := totalExponent m e - totalExponent n f with hd
  set T := min (e - f) (Format.binary64.targetExponent d) with hT
  set k := (e - f - T).toNat with hk
  have hdiv : div .binary64 (.finite s m e hm) (.finite t n f hn) =
      roundWithAccuracy .binary64 (s / t) (m * 2 ^ k / n) T
        (accuracyOfFraction (m * 2 ^ k % n) n) := by
    simp only [div, divCore, ← hd, ← hT, ← hk, Nat.shiftLeft_eq]
  have hq : magnitude m e / magnitude n f / 2 ^ T = (m * 2 ^ k : Nat) / (n : ℚ) := by
    have hexp : e - f = T + k := by omega
    have hpow : (2 : ℚ) ^ e = 2 ^ f * (2 ^ T * 2 ^ k) := by
      rw [← zpow_natCast, ← zpow_add₀ two_ne_zero, ← zpow_add₀ two_ne_zero, ← hexp]
      congr 1
      ring
    rw [magnitude, magnitude, hpow]
    push_cast
    field_simp
  rw [hdiv]
  refine exists_roundWithAccuracy (s / t) ?_ ?_
  · rw [hq]
    exact represents_fraction _ hn
  · rw [targetExponent_eq, totalExponent]
    rcases le_or_gt T (-1074) with hT' | hT'
    · omega
    · -- the quotient is above `2 ^ (d - 1)`, so it has all its bits at the exponent
      have hTd : T ≤ d - 53 := by
        rw [targetExponent_eq] at hT
        omega
      have hfull : (2 : ℚ) ^ (52 : Int) * n ≤ (m * 2 ^ k : Nat) := by
        rw [← le_div_iff₀ (by exact_mod_cast hn), ← hq, le_div_iff₀ (by positivity),
          le_div_iff₀ (magnitude_pos hn f), ← zpow_add₀ two_ne_zero]
        calc (2 : ℚ) ^ (52 + T) * magnitude n f
            ≤ 2 ^ (d - 1) * 2 ^ totalExponent n f :=
              mul_le_mul (zpow_le_zpow_right₀ one_le_two (by omega)) (magnitude_bounds hn f).2.le
                (magnitude_nonneg n f) (by positivity)
          _ = 2 ^ (totalExponent m e - 1) := by
              rw [← zpow_add₀ two_ne_zero, hd]
              congr 1
              ring
          _ ≤ magnitude m e := (magnitude_bounds hm e).1
      have hlog : 52 ≤ (m * 2 ^ k / n).log2 := by
        have hfull' : 2 ^ 52 ≤ m * 2 ^ k / n :=
          (Nat.le_div_iff_mul_le hn).mpr (by exact_mod_cast hfull)
        exact (Nat.le_log2 (by omega)).mpr hfull'
      omega

/-! ## Forms and doubles -/

theorem canonical_of_unpack {x : Float} {s : Sign} {m : Nat} {e : Int} {hm : 0 < m}
    (h : x.toModel.unpack = .finite s m e hm) : Canonical m e ∧ e ≤ 971 := by
  change UnpackedFloat.unpack .binary64 _ = _ at h
  unfold UnpackedFloat.unpack at h
  extract_lets v w exponent signVec sign at h
  have hv : v.toNat < 2 ^ 52 := v.isLt
  have hbias : exponent = (w.toNat : Int) - 1075 := rfl
  split_ifs at h with hones hv0 hw0 hv0
  · obtain ⟨-, rfl, rfl⟩ := UnpackedFloat.finite.inj h
    rw [hbias, hw0]
    exact ⟨⟨by omega, by decide, .inl rfl⟩, by decide⟩
  · obtain ⟨-, rfl, rfl⟩ := UnpackedFloat.finite.inj h
    have hne : w.toNat ≠ 2047 := fun heq => hones (BitVec.eq_of_toNat_eq heq)
    have hne' : w.toNat ≠ 0 := fun heq => hw0 (BitVec.eq_of_toNat_eq heq)
    have hw : w.toNat < 2048 := w.isLt
    have hlong : (1#1 ++ v).toNat = 2 ^ 52 + v.toNat := toNat_one_append v
    rw [hbias]
    exact ⟨⟨by omega, by omega, .inr (by omega)⟩, by omega⟩

theorem stored_canonical (s : Sign) {m : Nat} {e : Int} (hm : 0 < m) (h : Canonical m e)
    (he : e ≤ 971) : stored (.finite s m e hm) = .finite s m e hm := by
  rcases Nat.lt_or_ge m (2 ^ 52) with hlt | hge
  · obtain rfl : e = -1074 := h.full.resolve_right (by omega)
    have hlog : m.log2 + 1 ≠ Format.binary64.mantissaBits := by
      have : m.log2 < 52 := (Nat.log2_lt (Nat.ne_of_gt hm)).mpr hlt
      change m.log2 + 1 ≠ 53
      omega
    have hpack : UnpackedFloat.pack .binary64 (.finite s m (-1074) hm) =
        packComponents .binary64 s 0#11 (BitVec.ofNat 52 m) := by
      simp only [UnpackedFloat.pack]
      rw [if_neg (by decide), if_neg hlog]
    have hmantissa : (BitVec.ofNat 52 m).toNat = m := by
      rw [BitVec.toNat_ofNat, Nat.mod_eq_of_lt hlt]
    have hne : BitVec.ofNat 52 m ≠ 0#52 := by
      intro heq
      rw [heq] at hmantissa
      exact Nat.ne_of_lt hm hmantissa
    change UnpackedFloat.unpack .binary64 (UnpackedFloat.pack .binary64 _) = _
    simp only [hpack, UnpackedFloat.unpack, unpackExponent_packComponents,
      unpackMantissa_packComponents, unpackSign_packComponents, Sign.ofBitVec_toBitVec]
    rw [if_neg (by decide), if_pos trivial, dif_neg hne]
    simp only [hmantissa]
    rfl
  · have hlog : m.log2 = 52 := (Nat.log2_eq_iff (Nat.ne_of_gt hm)).mpr ⟨hge, h.lt⟩
    exact stored_finite s hm hlog h.least he

theorem stored_overflow (s : Sign) {m : Nat} {e : Int} (hm : 0 < m) (he : 971 < e) :
    stored (.finite s m e hm) = .infinity s := by
  have hbias : (e + Format.binary64.exponentBias +
      Format.binary64.mantissaBitsWithoutImplicit).toNat = (e + 1075).toNat := by
    change (e + (1023 : Nat) + (52 : Nat)).toNat = _
    omega
  have hpack : UnpackedFloat.pack .binary64 (.finite s m e hm) =
      UnpackedFloat.pack .binary64 (.infinity s) := by
    simp only [UnpackedFloat.pack, hbias]
    exact if_pos (by omega)
  exact (congrArg _ hpack).trans (stored_infinity s)

theorem stored_assemble (s : Sign) {m : Nat} {e : Int} (h : Canonical m e) :
    stored (assemble s m e) = if e ≤ 971 then assemble s m e else .infinity s := by
  rcases Nat.eq_zero_or_pos m with rfl | hm
  · obtain rfl : e = -1074 := h.full.resolve_right (by decide)
    exact stored_zero s
  · rw [assemble_pos s e hm]
    split_ifs with he
    · exact stored_canonical s hm h he
    · exact stored_overflow s hm (Int.lt_of_not_ge he)

/-- What is beyond the doubles is rounded to infinity. -/
theorem Rounds.stored_beyond {q : ℚ} {m : Nat} {e : Int} (h : Rounds q m e)
    (hq : 2 ^ (1024 : Int) ≤ q) (s : Sign) : stored (assemble s m e) = .infinity s := by
  have hbeyond : Canonical (2 ^ 52) 972 := by decide
  have hge := h.ge hbeyond (magnitude_beyond.trans_le hq)
  rw [stored_assemble s h.canonical, if_neg]
  rw [← h.canonical.magnitude_lt_iff, not_lt, ← magnitude_beyond]
  exact hge

end Double

end PrinterShadow
