import PrinterShadow.Proofs.Double.Nearest

/-!
Doubles without a minus sign. Absolute values have none, and square roots, products, quotients and
sums of such doubles have none; a sum of two is not less than the first. Negative zero, the only
number that adding zero changes, is a sum just where both summands are negative zero.
-/

namespace PrinterShadow

namespace Double

open Float.Model (UnpackedFloat)
open Float.Model.UnpackedFloat hiding unpack pack round normalize

theorem unpack_div (x y : Float) : (x / y).toModel.unpack =
    stored (div .binary64 x.toModel.unpack y.toModel.unpack) := rfl

theorem unpack_sqrt (x : Float) :
    x.sqrt.toModel.unpack = stored (sqrt .binary64 x.toModel.unpack) := rfl

namespace Unpacked

def Unsigned : UnpackedFloat → Prop
  | .notANumber => True
  | .infinity s | .zero s | .finite s _ _ _ => s = .positive

theorem unsigned_roundWithAccuracy (m : Nat) (e : Int) (acc : Accuracy) :
    Unsigned (roundWithAccuracy .binary64 .positive m e acc) := by
  simp only [roundWithAccuracy]
  split <;> rfl

theorem unsigned_stored {x : UnpackedFloat} (h : Unsigned x) : Unsigned (stored x) := by
  cases x with
  | notANumber => trivial
  | infinity s => rwa [stored_infinity]
  | zero s => rwa [stored_zero]
  | finite s m e hm =>
    obtain rfl : s = .positive := h
    have hunpack (v : BitVec 11) (w : BitVec 52) :
        Unsigned (UnpackedFloat.unpack .binary64 (packComponents .binary64 .positive v w)) := by
      simp only [UnpackedFloat.unpack, unpackSign_packComponents, Sign.ofBitVec_toBitVec]
      split_ifs <;> trivial
    change Unsigned (UnpackedFloat.unpack .binary64 (UnpackedFloat.pack .binary64 _))
    simp only [UnpackedFloat.pack]
    split_ifs <;> exact hunpack _ _

theorem unsigned_abs (x : UnpackedFloat) : Unsigned (abs x) := by
  cases x <;> trivial

theorem unsigned_sqrt {x : UnpackedFloat} (h : Unsigned x) : Unsigned (sqrt .binary64 x) := by
  cases x with
  | notANumber => trivial
  | infinity s => obtain rfl : s = .positive := h; rfl
  | zero s => exact h
  | finite s m e hm =>
    obtain rfl : s = .positive := h
    exact unsigned_roundWithAccuracy _ _ _

theorem unsigned_mul {x y : UnpackedFloat} (hx : Unsigned x) (hy : Unsigned y) :
    Unsigned (mul .binary64 x y) := by
  cases x <;> cases y <;> simp only [Unsigned] at hx hy <;> (try subst hx) <;> (try subst hy) <;>
    first | trivial | exact unsigned_roundWithAccuracy _ _ _

theorem unsigned_div {x y : UnpackedFloat} (hx : Unsigned x) (hy : Unsigned y) :
    Unsigned (div .binary64 x y) := by
  cases x <;> cases y <;> simp only [Unsigned] at hx hy <;> (try subst hx) <;> (try subst hy) <;>
    first | trivial | exact unsigned_roundWithAccuracy _ _ _

theorem unsigned_add {x y : UnpackedFloat} (hx : Unsigned x) (hy : Unsigned y) :
    Unsigned (add .binary64 x y) := by
  have hnormalize {a : Int} (ha : 0 < a) (e : Int) :
      Unsigned (UnpackedFloat.normalize .binary64 a e .positive) := by
    rw [UnpackedFloat.normalize, Int.compare_eq_gt.mpr ha]
    exact unsigned_roundWithAccuracy _ _ _
  cases x <;> cases y <;> simp only [Unsigned] at hx hy <;> (try subst hx) <;> (try subst hy) <;>
    try trivial
  case finite.finite m e hm n f hn =>
    refine hnormalize ?_ _
    simp only [Sign.apply, Nat.shiftLeft_eq]
    positivity

end Unpacked

/-- The double has no minus sign. -/
def Unsigned (x : Float) : Prop := Unpacked.Unsigned x.toModel.unpack

namespace Unsigned

variable {x y : Float}

theorem abs (x : Float) : Unsigned x.abs := by
  rw [Unsigned, unpack_abs]
  exact Unpacked.unsigned_stored (Unpacked.unsigned_abs _)

theorem sqrt (hx : Unsigned x) : Unsigned x.sqrt := by
  rw [Unsigned, unpack_sqrt]
  exact Unpacked.unsigned_stored (Unpacked.unsigned_sqrt hx)

theorem add (hx : Unsigned x) (hy : Unsigned y) : Unsigned (x + y) := by
  rw [Unsigned, unpack_add]
  exact Unpacked.unsigned_stored (Unpacked.unsigned_add hx hy)

theorem mul (hx : Unsigned x) (hy : Unsigned y) : Unsigned (x * y) := by
  rw [Unsigned, unpack_mul]
  exact Unpacked.unsigned_stored (Unpacked.unsigned_mul hx hy)

theorem div (hx : Unsigned x) (hy : Unsigned y) : Unsigned (x / y) := by
  rw [Unsigned, unpack_div]
  exact Unpacked.unsigned_stored (Unpacked.unsigned_div hx hy)

theorem of_pos (h : 0 < x) : Unsigned x := by
  have hzero : (0 : Float).toModel.unpack = .zero .positive := by rfl
  rw [lt_iff_compare, hzero] at h
  unfold Unsigned
  generalize x.toModel.unpack = x at h ⊢
  rcases x with ⟨_ | _⟩ | _ | s | ⟨_ | _, m, e, hm⟩ <;>
    simp [UnpackedFloat.compare, Unpacked.Unsigned] at h ⊢

end Unsigned

/-- A sum without a minus sign is rounded to nothing below its first summand. -/
theorem Unpacked.not_stored_add_lt {m n : Nat} {e f : Int} {hm : 0 < m} {hn : 0 < n}
    (h : Canonical m e) :
    UnpackedFloat.compare
      (stored (add .binary64 (.finite .positive m e hm) (.finite .positive n f hn)))
      (.finite .positive m e hm) ≠ some .lt := by
  intro hlt
  obtain ⟨m', e', hadd, hnearest⟩ := exists_add e f hm hn
  have hle : magnitude m e ≤ magnitude m' e' :=
    hnearest.rounds.ge h (le_add_of_nonneg_right (magnitude_nonneg n f))
  have hm' : 0 < m' := by
    refine Nat.pos_of_ne_zero ?_
    rintro rfl
    rw [magnitude_zero] at hle
    exact absurd (magnitude_pos hm e) (not_lt.mpr hle)
  rw [hadd, stored_assemble .positive hnearest.canonical, assemble_pos .positive e' hm'] at hlt
  split_ifs at hlt
  · have hlex : e' < e ∨ e' = e ∧ m' < m := by
      simpa [UnpackedFloat.compare, Ordering.then_eq_lt, Int.compare_eq_lt, Nat.compare_eq_lt]
        using hlt
    exact absurd (hnearest.canonical.magnitude_lt h hlex) (not_lt.mpr hle)
  · simp [UnpackedFloat.compare] at hlt

namespace Unsigned

variable {x y : Float}

theorem not_lt_zero (hx : Unsigned x) : ¬ x < 0 := by
  have hzero : (0 : Float).toModel.unpack = .zero .positive := by rfl
  unfold Unsigned at hx
  rw [lt_iff_compare, hzero]
  generalize x.toModel.unpack = x at hx ⊢
  rcases x with ⟨_ | _⟩ | _ | s | ⟨_ | _, m, e, hm⟩ <;>
    simp [UnpackedFloat.compare, Unpacked.Unsigned] at hx ⊢

/-- A sum of doubles without a minus sign is not less than the first. -/
theorem not_add_lt (hx : Unsigned x) (hy : Unsigned y) : ¬ x + y < x := by
  have hsum : ¬ x + y < 0 := (hx.add hy).not_lt_zero
  have hnan (u : UnpackedFloat) : UnpackedFloat.compare (stored .notANumber) u ≠ some .lt := nofun
  have hinfinite (u : UnpackedFloat) :
      UnpackedFloat.compare (stored (.infinity .positive)) u ≠ some .lt := by
    rw [stored_infinity]
    rcases u with ⟨_ | _⟩ | _ | _ | _ <;> nofun
  unfold Unsigned at hx hy
  cases hxu : x.toModel.unpack with
  | notANumber => exact fun h => (ne_nan_of_lt h).2 (unpack_eq_notANumber.mp hxu)
  | infinity s =>
    obtain rfl : s = .positive := by rwa [hxu] at hx
    rw [lt_iff_compare, unpack_add, hxu]
    cases hyu : y.toModel.unpack with
    | notANumber => exact hnan _
    | infinity t =>
      obtain rfl : t = .positive := by rwa [hyu] at hy
      exact hinfinite _
    | zero t => exact hinfinite _
    | finite t n f hn => exact hinfinite _
  | zero s =>
    obtain rfl : s = .positive := by rwa [hxu] at hx
    have hzero : x == 0 :=
      (beq_iff_ne_notANumber_and_eq x.toModel.unpack (.zero .positive)).mpr (by simp [hxu])
    exact mt (lt_congr_right hzero).mp hsum
  | finite s m e hm =>
    obtain rfl : s = .positive := by rwa [hxu] at hx
    rw [lt_iff_compare, unpack_add, hxu]
    cases hyu : y.toModel.unpack with
    | notANumber => exact hnan _
    | infinity t =>
      obtain rfl : t = .positive := by rwa [hyu] at hy
      exact hinfinite _
    | zero t =>
      have hirrefl := lt_irrefl x
      rw [lt_iff_compare, hxu] at hirrefl
      change UnpackedFloat.compare (stored (.finite .positive m e hm)) _ ≠ _
      rwa [← hxu, stored_unpack, hxu]
    | finite t n f hn =>
      obtain rfl : t = .positive := by rwa [hyu] at hy
      exact Unpacked.not_stored_add_lt (canonical_of_unpack hxu).1

end Unsigned

theorem stored_assemble_ne_zero (s t : Sign) {m : Nat} {e : Int} (hm : 0 < m)
    (h : Canonical m e) : stored (assemble s m e) ≠ .zero t := by
  rw [stored_assemble s h, assemble_pos s e hm]
  split_ifs <;> simp

/-- A sum of two finite doubles that is not zero is not rounded to zero. -/
theorem stored_normalize_ne_zero {a : Int} (ha : a ≠ 0) {e : Int} (he : -1074 ≤ e) (s t : Sign) :
    stored (UnpackedFloat.normalize .binary64 a e s) ≠ .zero t := by
  have hround (s' : Sign) {n : Nat} (hn : 0 < n) :
      stored (UnpackedFloat.round .binary64 s' n e) ≠ .zero t := by
    obtain ⟨m, e', hround, hnearest⟩ := exists_round s' hn e
    rw [hround]
    exact stored_assemble_ne_zero s' t (hnearest.rounds.pos (least_le_magnitude hn he))
      hnearest.canonical
  unfold UnpackedFloat.normalize
  split
  case h_1 h => exact hround _ (by have := Int.compare_eq_lt.mp h; omega)
  case h_2 h => exact absurd (Int.compare_eq_eq.mp h) ha
  case h_3 h => exact hround _ (by have := Int.compare_eq_gt.mp h; omega)

theorem stored_ne_zero_of_unpack {x : Float} {s : Sign} {m : Nat} {e : Int} {hm : 0 < m}
    (h : x.toModel.unpack = .finite s m e hm) (t : Sign) : stored (.finite s m e hm) ≠ .zero t := by
  rw [← assemble_pos s e hm]
  exact stored_assemble_ne_zero s t hm (canonical_of_unpack h).1

/-- A sum with a summand that has no minus sign is not negative zero. -/
theorem add_ne_negativeZero (x : Float) {y : Float} (hy : Unsigned y) :
    (x + y).toModel.unpack ≠ .zero .negative := by
  have hnan : stored .notANumber ≠ .zero .negative := UnpackedFloat.noConfusion
  have hinfinity (s : Sign) : stored (.infinity s) ≠ .zero .negative := by simp
  unfold Unsigned at hy
  rw [unpack_add]
  cases hx : x.toModel.unpack with
  | notANumber => exact hnan
  | infinity s =>
    cases y.toModel.unpack with
    | notANumber => exact hnan
    | infinity t =>
      rw [add]
      split
      · exact hinfinity s
      · exact hnan
    | zero t => exact hinfinity s
    | finite t n f hn => exact hinfinity s
  | zero s =>
    cases hy' : y.toModel.unpack with
    | notANumber => exact hnan
    | infinity t => exact hinfinity t
    | zero t =>
      rw [hy'] at hy
      obtain rfl : t = .positive := hy
      have hsum : add .binary64 (.zero s) (.zero .positive) = .zero .positive := by cases s <;> rfl
      rw [hsum]
      simp
    | finite t n f hn => exact stored_ne_zero_of_unpack hy' _
  | finite s m e hm =>
    cases hy' : y.toModel.unpack with
    | notANumber => exact hnan
    | infinity t => exact hinfinity t
    | zero t => exact stored_ne_zero_of_unpack hx _
    | finite t n f hn =>
      have hmin : -1074 ≤ min e f :=
        le_min (canonical_of_unpack hx).1.least (canonical_of_unpack hy').1.least
      simp only [add]
      generalize t.apply _ = b
      generalize s.apply _ = a
      by_cases hzero : a + b = 0
      · rw [hzero]
        change stored (.zero .positive) ≠ _
        simp
      · exact stored_normalize_ne_zero hzero hmin _ _

theorem add_zero_of_ne {x : Float} (h : x.toModel.unpack ≠ .zero .negative) : x + 0 = x := by
  have hzero : (0 : Float).toModel.unpack = .zero .positive := by rfl
  have hadd : add .binary64 x.toModel.unpack (.zero .positive) = x.toModel.unpack := by
    cases hx : x.toModel.unpack with
    | zero s =>
      cases s with
      | negative => exact absurd hx h
      | positive => rfl
    | _ => rfl
  refine unpack_inj ?_
  rw [unpack_add, hzero, hadd, stored_unpack]

theorem sub_self_of_isFinite {x : Float} (h : x.isFinite) : x - x = 0 := by
  have hzero : (0 : Float).toModel.unpack = .zero .positive := by rfl
  have hsub : sub .binary64 x.toModel.unpack x.toModel.unpack = .zero .positive := by
    change x.toModel.unpack.isFinite = true at h
    cases hx : x.toModel.unpack with
    | notANumber => nomatch hx ▸ h
    | infinity s => nomatch hx ▸ h
    | zero s => cases s <;> rfl
    | finite s m e hm =>
      simp only [sub, Int.sub_self]
      rfl
  refine unpack_inj ?_
  rw [unpack_sub, hsub, hzero, stored_zero]

theorem zero_div_of_pos {x : Float} (h : 0 < x) : 0 / x = 0 := by
  have hzero : (0 : Float).toModel.unpack = .zero .positive := by rfl
  have hdiv : div .binary64 (.zero .positive) x.toModel.unpack = .zero .positive := by
    rw [lt_iff_compare, hzero] at h
    generalize x.toModel.unpack = x at h ⊢
    rcases x with ⟨_ | _⟩ | _ | s | ⟨_ | _, m, e, hm⟩ <;>
      first | rfl | simp [UnpackedFloat.compare] at h
  refine unpack_inj ?_
  rw [unpack_div, hzero, hdiv, stored_zero]

end Double

end PrinterShadow
