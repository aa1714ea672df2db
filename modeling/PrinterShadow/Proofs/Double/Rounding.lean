import Mathlib

/-!
Storing and rounding doubles. A whole number below `2 ^ 53` in absolute value has one form with a
mantissa of 53 bits, which storing keeps. Sums, differences and products that stay below are in that
form again, and a sum that does not stay below is stored with a positive exponent.
-/

namespace PrinterShadow

namespace Double

open Float.Model (Format UnpackedFloat totalExponent)
open Float.Model.UnpackedFloat hiding unpack pack round normalize

instance decidableEqSign : DecidableEq Sign
  | .positive, .positive => .isTrue rfl
  | .negative, .negative => .isTrue rfl
  | .positive, .negative => .isFalse nofun
  | .negative, .positive => .isFalse nofun

instance decidableEqUnpackedFloat : DecidableEq UnpackedFloat
  | .notANumber, .notANumber => .isTrue rfl
  | .infinity s, .infinity t => decidable_of_iff (s = t) (by simp)
  | .zero s, .zero t => decidable_of_iff (s = t) (by simp)
  | .finite s m e _, .finite t n d _ => decidable_of_iff (s = t ∧ m = n ∧ e = d) (by simp)
  | .notANumber, .infinity _ | .notANumber, .zero _ | .notANumber, .finite _ _ _ _
  | .infinity _, .notANumber | .infinity _, .zero _ | .infinity _, .finite _ _ _ _
  | .zero _, .notANumber | .zero _, .infinity _ | .zero _, .finite _ _ _ _
  | .finite _ _ _ _, .notANumber | .finite _ _ _ _, .infinity _ | .finite _ _ _ _, .zero _ =>
    .isFalse nofun

/-- A result as it is once it has been stored in a double. -/
def stored (f : UnpackedFloat) : UnpackedFloat := (Float.Model.pack f).unpack

theorem unpack_inj {x y : Float} (h : x.toModel.unpack = y.toModel.unpack) : x = y := by
  rw [← Float.toBits_inj, ← UInt64.toBitVec_inj]
  exact (unpack_inj_of_valid x.toModel.valid y.toModel.valid).mp h

theorem unpack_eq_notANumber {x : Float} : x.toModel.unpack = .notANumber ↔ x = .nan :=
  ⟨fun h => unpack_inj (h.trans (by rfl)), fun h => h ▸ rfl⟩

theorem unpack_add (x y : Float) : (x + y).toModel.unpack =
    stored (add .binary64 x.toModel.unpack y.toModel.unpack) := rfl

theorem unpack_sub (x y : Float) : (x - y).toModel.unpack =
    stored (sub .binary64 x.toModel.unpack y.toModel.unpack) := rfl

theorem unpack_mul (x y : Float) : (x * y).toModel.unpack =
    stored (mul .binary64 x.toModel.unpack y.toModel.unpack) := rfl

theorem unpack_neg (x : Float) : (-x).toModel.unpack = stored (neg x.toModel.unpack) := rfl

theorem unpack_abs (x : Float) : x.abs.toModel.unpack = stored (abs x.toModel.unpack) := rfl

@[simp]
theorem stored_infinity (s : Sign) : stored (.infinity s) = .infinity s := by cases s <;> rfl

@[simp]
theorem stored_zero (s : Sign) : stored (.zero s) = .zero s := by cases s <;> rfl

/-- What is stored in a double already is stored as it is. -/
theorem stored_unpack (x : Float) : stored x.toModel.unpack = x.toModel.unpack := by
  refine congrArg (UnpackedFloat.unpack .binary64) ((pack_unpack _).trans ?_)
  split
  case isTrue hnan =>
    obtain ⟨hexponent, hmantissa⟩ := of_decide_eq_true hnan
    exact (x.toModel.valid.eq_packedNaN hexponent hmantissa).symm
  case isFalse => rfl

theorem toNat_one_append (v : BitVec 52) : (1#1 ++ v).toNat = 2 ^ 52 + v.toNat := by
  rw [BitVec.toNat_append, ← Nat.shiftLeft_add_eq_or_of_lt v.isLt]
  simp [Nat.shiftLeft_eq]

theorem unpack_components (s : Sign) {e : BitVec 11} {v : BitVec 52}
    (h0 : e ≠ 0#11) (h1 : e ≠ -1#11) :
    UnpackedFloat.unpack .binary64 (packComponents .binary64 s e v) =
      .finite s (2 ^ 52 + v.toNat) (e.toNat - 1075) (by positivity) := by
  simp only [UnpackedFloat.unpack, unpackExponent_packComponents, unpackMantissa_packComponents,
    unpackSign_packComponents, Sign.ofBitVec_toBitVec]
  rw [if_neg h1, if_neg h0]
  simp only [toNat_one_append]
  rfl

theorem ofNat_ne_allOnes {n : Nat} (h : n < 2047) : BitVec.ofNat 11 n ≠ -1#11 := by
  intro heq
  have := congrArg BitVec.toNat heq
  simp at this
  omega

/-- A result with a mantissa of 53 bits and an exponent in range is stored as it is. -/
theorem stored_finite (s : Sign) {m : Nat} {e : Int} (hm : 0 < m) (hlog : m.log2 = 52)
    (hlo : -1074 ≤ e) (hhi : e ≤ 971) : stored (.finite s m e hm) = .finite s m e hm := by
  obtain ⟨hlow, hhigh⟩ := (Nat.log2_eq_iff (Nat.ne_of_gt hm)).mp hlog
  have hbias : (e + Format.binary64.exponentBias +
      Format.binary64.mantissaBitsWithoutImplicit).toNat = (e + 1075).toNat := by
    change (e + (1023 : Nat) + (52 : Nat)).toNat = _
    omega
  have hpack : UnpackedFloat.pack .binary64 (.finite s m e hm) =
      packComponents .binary64 s (BitVec.ofNat 11 (e + 1075).toNat) (BitVec.ofNat 52 m) := by
    simp only [UnpackedFloat.pack, hbias, hlog]
    rw [if_neg (by omega), if_pos (by rfl)]
  change UnpackedFloat.unpack .binary64 (UnpackedFloat.pack .binary64 _) = _
  rw [hpack, unpack_components s _ (ofNat_ne_allOnes (by omega))]
  · congr 1
    · simp only [BitVec.toNat_ofNat]; omega
    · simp only [BitVec.toNat_ofNat]; omega
  · intro heq
    have := congrArg BitVec.toNat heq
    simp at this
    omega

theorem stored_eq_notANumber {f : UnpackedFloat} : stored f = .notANumber ↔ f = .notANumber := by
  refine ⟨fun h => ?_, by rintro rfl; rfl⟩
  cases f with
  | notANumber => rfl
  | infinity s => simp at h
  | zero s => simp at h
  | finite s m e hm =>
    exfalso
    revert h
    change UnpackedFloat.unpack .binary64 (UnpackedFloat.pack .binary64 _) ≠ _
    unfold UnpackedFloat.pack
    extract_lets bits biased
    split_ifs with hover hbits
    · cases s <;> exact nofun
    · have hne := ofNat_ne_allOnes (n := biased) (by change ¬ 2048 ≤ _ at hover; omega)
      simp only [UnpackedFloat.unpack, unpackExponent_packComponents]
      rw [if_neg hne]
      split_ifs <;> exact nofun
    · simp only [UnpackedFloat.unpack, unpackExponent_packComponents]
      rw [if_neg (by decide)]
      split_ifs <;> exact nofun

theorem shiftRight_exact (m k : Nat) :
    (⟨m * 2 ^ k, false, false⟩ : ExtendedMantissa) >>> k = ⟨m, false, false⟩ := by
  change Nat.repeat ExtendedMantissa.shiftRightOne k _ = _
  induction k generalizing m with
  | zero => simp [Nat.repeat]
  | succ k ih =>
    rw [Nat.pow_succ', ← Nat.mul_assoc, Nat.repeat, ih]
    simp [ExtendedMantissa.shiftRightOne]

theorem log2_mul_two_pow {n : Nat} (hn : 0 < n) (j : Nat) : (n * 2 ^ j).log2 = n.log2 + j := by
  have h := (Nat.log2_eq_iff (k := n.log2) (Nat.ne_of_gt hn)).mp rfl
  rw [Nat.log2_eq_iff (by positivity)]
  constructor
  · rw [Nat.pow_add]; exact Nat.mul_le_mul_right _ h.1
  · rw [Nat.add_right_comm, Nat.pow_add]; exact Nat.mul_lt_mul_of_pos_right h.2 (by positivity)

theorem targetExponent_whole {n : Nat} (hn : 0 < n) (h : n < 2 ^ 53) (j : Nat) :
    Format.binary64.targetExponent (totalExponent (n * 2 ^ j) (-j)) =
      -((52 - n.log2 : Nat) : Int) := by
  have hlog : n.log2 < 53 := (Nat.log2_lt (Nat.ne_of_gt hn)).mpr h
  rw [totalExponent, log2_mul_two_pow hn]
  change max (((n.log2 + j : Nat) : Int) + 1 + -j - 53) (-1074) = _
  omega

theorem shiftToTargetExponent_exact {n : Nat} (hn : 0 < n) (h : n < 2 ^ 53) {j : Nat}
    (hj : 52 - n.log2 ≤ j) :
    shiftToTargetExponent .binary64 (n * 2 ^ j) (-j) .exact =
      (⟨n * 2 ^ (52 - n.log2), false, false⟩, -((52 - n.log2 : Nat) : Int)) := by
  obtain ⟨k, rfl⟩ := Nat.exists_eq_add_of_le hj
  simp only [shiftToTargetExponent, shiftToExponent, targetExponent_whole hn h]
  have hk : (-((52 - n.log2 : Nat) : Int) - -((52 - n.log2 + k : Nat) : Int)).toNat = k := by omega
  rw [hk, Nat.pow_add, ← Nat.mul_assoc]
  refine Prod.ext (shiftRight_exact _ k) ?_
  dsimp only
  omega

theorem roundWithAccuracy_of_shifts (s : Sign) {m m' : Nat} {e e₁ e' : Int} {acc : Accuracy}
    {em em' : ExtendedMantissa} (h₁ : shiftToTargetExponent .binary64 m e acc = (em, e₁))
    (h₂ : shiftToTargetExponent .binary64 em.roundedMantissa e₁ .exact = (em', e'))
    (hm : em'.mantissa = m') (hpos : 0 < m') :
    roundWithAccuracy .binary64 s m e acc = .finite s m' e' hpos := by
  subst hm
  simp only [roundWithAccuracy, h₁, h₂]
  rw [dif_neg (Nat.ne_of_gt hpos)]

theorem roundWithAccuracy_exact (s : Sign) {n : Nat} (hn : 0 < n) (h : n < 2 ^ 53) {j : Nat}
    (hj : 52 - n.log2 ≤ j) :
    roundWithAccuracy .binary64 s (n * 2 ^ j) (-j) .exact =
      .finite s (n * 2 ^ (52 - n.log2)) (-((52 - n.log2 : Nat) : Int)) (by positivity) :=
  roundWithAccuracy_of_shifts s (shiftToTargetExponent_exact hn h hj)
    (shiftToTargetExponent_exact hn h (Nat.le_refl _)) rfl _

theorem shiftToTargetExponent_one {m : Nat} (hm : m.log2 = 52) :
    shiftToTargetExponent .binary64 m 1 .exact = (⟨m, false, false⟩, 1) := by
  have ht : Format.binary64.targetExponent (totalExponent m 1) = 1 := by rw [totalExponent, hm]; rfl
  rw [shiftToTargetExponent, ht]
  rfl

/-- A whole number of 54 bits is rounded to a form with a positive exponent. -/
theorem round_beyond (s : Sign) {n : Nat} (hlo : 2 ^ 53 ≤ n) (hhi : n < 2 ^ 54) (j : Nat) :
    ∃ (m : Nat) (e : Int) (hm : 0 < m), m.log2 = 52 ∧ 0 < e ∧ e ≤ 2 ∧
      UnpackedFloat.round .binary64 s (n * 2 ^ j) (-j) = .finite s m e hm := by
  have hlog : n.log2 = 53 := (Nat.log2_eq_iff (by omega)).mpr ⟨hlo, hhi⟩
  have htarget : Format.binary64.targetExponent (totalExponent (n * 2 ^ j) (-j)) = 1 := by
    rw [totalExponent, log2_mul_two_pow (by omega), hlog]
    change max (((53 + j : Nat) : Int) + 1 + -j - 53) (-1074) = _
    omega
  have hdec : decreaseExponent (n * 2 ^ j) (-j) 1 = (n * 2 ^ j, -(j : Int)) := by
    simp [decreaseExponent, show (-(j : Int) - 1).toNat = 0 by omega]
  have hshift : shiftToTargetExponent .binary64 (n * 2 ^ j) (-j) .exact =
      (⟨n / 2, n % 2 != 0, false⟩, (1 : Int)) := by
    have hk : ((1 : Int) - -(j : Int)).toNat = j + 1 := by omega
    rw [shiftToTargetExponent, htarget, shiftToExponent, hk]
    refine Prod.ext ?_ (by dsimp only; omega)
    change ExtendedMantissa.shiftRightOne
      ((⟨n * 2 ^ j, false, false⟩ : ExtendedMantissa) >>> j) = _
    rw [shiftRight_exact]
    simp [ExtendedMantissa.shiftRightOne]
  have hrounded : 2 ^ 52 ≤ (⟨n / 2, n % 2 != 0, false⟩ : ExtendedMantissa).roundedMantissa ∧
      (⟨n / 2, n % 2 != 0, false⟩ : ExtendedMantissa).roundedMantissa ≤ 2 ^ 53 := by
    cases n % 2 != 0 <;>
      simp only [ExtendedMantissa.roundedMantissa, ExtendedMantissa.accuracy,
        Accuracy.roundToNearestEven] <;> omega
  simp only [UnpackedFloat.round, htarget, hdec]
  rcases Nat.eq_or_lt_of_le hrounded.2 with heq | hlt
  · refine ⟨2 ^ 52, 2, by decide, by decide +kernel, by decide, by decide, ?_⟩
    exact roundWithAccuracy_of_shifts s hshift (by rw [heq]; rfl) (by rfl) _
  · have hlog := (Nat.log2_eq_iff (k := 52) (by omega)).mpr ⟨hrounded.1, hlt⟩
    refine ⟨_, 1, by omega, hlog, by decide, by decide, ?_⟩
    exact roundWithAccuracy_of_shifts s hshift (shiftToTargetExponent_one hlog) rfl _

theorem round_exact (s : Sign) {n : Nat} (hn : 0 < n) (h : n < 2 ^ 53) (j : Nat) :
    UnpackedFloat.round .binary64 s (n * 2 ^ j) (-j) =
      .finite s (n * 2 ^ (52 - n.log2)) (-((52 - n.log2 : Nat) : Int)) (by positivity) := by
  have hd : decreaseExponent (n * 2 ^ j) (-j) (-((52 - n.log2 : Nat) : Int)) =
      (n * 2 ^ max j (52 - n.log2), -((max j (52 - n.log2) : Nat) : Int)) := by
    have hs : (-(j : Int) - -((52 - n.log2 : Nat) : Int)).toNat = max j (52 - n.log2) - j := by
      omega
    simp only [decreaseExponent, hs, Nat.shiftLeft_eq, Nat.mul_assoc, ← Nat.pow_add]
    refine Prod.ext ?_ ?_ <;> dsimp only
    · congr 2; omega
    · omega
  simp only [UnpackedFloat.round, targetExponent_whole hn h, hd]
  exact roundWithAccuracy_exact s hn h (Nat.le_max_right _ _)

/-- The form of a whole number of a given magnitude. -/
def form (s : Sign) (n : Nat) : UnpackedFloat :=
  if h : n = 0 then .zero s
  else .finite s (n * 2 ^ (52 - n.log2)) (-((52 - n.log2 : Nat) : Int)) (by positivity)

theorem form_zero (s : Sign) : form s 0 = .zero s := rfl

theorem form_pos (s : Sign) {n : Nat} (hn : 0 < n) : form s n =
    .finite s (n * 2 ^ (52 - n.log2)) (-((52 - n.log2 : Nat) : Int)) (by positivity) :=
  dif_neg (Nat.ne_of_gt hn)

theorem stored_form (s : Sign) {n : Nat} (h : n < 2 ^ 53) : stored (form s n) = form s n := by
  rcases Nat.eq_zero_or_pos n with rfl | hn
  · exact stored_zero s
  · have hlog : n.log2 < 53 := (Nat.log2_lt (Nat.ne_of_gt hn)).mpr h
    rw [form_pos s hn]
    refine stored_finite s _ ?_ (by omega) (by omega)
    rw [log2_mul_two_pow hn]
    omega

theorem normalize_eq_round (zs : Sign) {a : Int} (ha : a ≠ 0) (j : Nat) :
    ∃ s : Sign, s.apply a.natAbs = a ∧ UnpackedFloat.normalize .binary64 (a * 2 ^ j) (-j) zs =
      UnpackedFloat.round .binary64 s (a.natAbs * 2 ^ j) (-j) := by
  have hp : (0 : Int) < 2 ^ j := by positivity
  rcases Int.lt_or_gt_of_ne ha with ha | ha
  · refine ⟨.negative, by simp only [Sign.apply]; omega, ?_⟩
    have hm : (-(a * 2 ^ j)).toNat = a.natAbs * 2 ^ j := by
      obtain ⟨n, rfl⟩ : ∃ n : Nat, a = -n := ⟨a.natAbs, by omega⟩
      rw [Int.neg_mul, Int.neg_neg, Int.natAbs_neg]
      exact Int.toNat_natCast _
    rw [UnpackedFloat.normalize, Int.compare_eq_lt.mpr (Int.mul_neg_of_neg_of_pos ha hp)]
    simp only [hm]
  · refine ⟨.positive, by simp only [Sign.apply]; omega, ?_⟩
    have hm : (a * 2 ^ j).toNat = a.natAbs * 2 ^ j := by
      obtain ⟨n, rfl⟩ : ∃ n : Nat, a = n := ⟨a.natAbs, by omega⟩
      exact Int.toNat_natCast _
    rw [UnpackedFloat.normalize, Int.compare_eq_gt.mpr (Int.mul_pos ha hp)]
    simp only [hm]

theorem normalize_exact (zs : Sign) {a : Int} (h : a.natAbs < 2 ^ 53) (j : Nat) :
    ∃ s : Sign, s.apply a.natAbs = a ∧
      UnpackedFloat.normalize .binary64 (a * 2 ^ j) (-j) zs = form s a.natAbs := by
  by_cases ha : a = 0
  · subst ha
    exact ⟨zs, by cases zs <;> rfl, by simp [UnpackedFloat.normalize, form_zero]⟩
  · obtain ⟨s, hs, hnorm⟩ := normalize_eq_round zs ha j
    have hpos : 0 < a.natAbs := by omega
    exact ⟨s, hs, hnorm.trans ((round_exact s hpos h j).trans (form_pos s hpos).symm)⟩

theorem sign_apply_mul (s : Sign) (n j : Nat) :
    s.apply ((n * 2 ^ j : Nat) : Int) = s.apply n * 2 ^ j := by
  cases s <;> simp [Sign.apply]

theorem sign_apply_neg (s : Sign) (n : Int) : (-s).apply n = -s.apply n := by
  cases s
  · exact (Int.neg_neg n).symm
  · rfl

@[simp]
theorem natAbs_sign_apply (s : Sign) (n : Int) : (s.apply n).natAbs = n.natAbs := by
  cases s <;> simp [Sign.apply]

theorem decreaseExponent_exact (n : Nat) {j k : Nat} (h : j ≤ k) :
    (decreaseExponent (n * 2 ^ j) (-j) (-k)).1 = n * 2 ^ k := by
  have hs : (-(j : Int) - -(k : Int)).toNat = k - j := by omega
  simp only [decreaseExponent, hs, Nat.shiftLeft_eq, Nat.mul_assoc, ← Nat.pow_add]
  congr 2; omega

theorem neg_form (s : Sign) (n : Nat) : neg (form s n) = form (-s) n := by
  unfold form; split <;> rfl

theorem sub_eq_add_neg (x y : UnpackedFloat) :
    sub .binary64 x y = add .binary64 x (neg y) := by
  cases x <;> cases y <;> simp [sub, add, neg, sign_apply_neg, Int.sub_eq_add_neg]

theorem add_form_eq_normalize (s t : Sign) {m n : Nat} (hm : 0 < m) (hn : 0 < n) :
    ∃ j : Nat, add .binary64 (form s m) (form t n) =
      UnpackedFloat.normalize .binary64 ((s.apply m + t.apply n) * 2 ^ j) (-j) .positive := by
  refine ⟨max (52 - m.log2) (52 - n.log2), ?_⟩
  have hmin : min (-((52 - m.log2 : Nat) : Int)) (-((52 - n.log2 : Nat) : Int)) =
      -((max (52 - m.log2) (52 - n.log2) : Nat) : Int) := by omega
  simp only [form_pos s hm, form_pos t hn, add, hmin]
  rw [decreaseExponent_exact m (Nat.le_max_left _ _),
    decreaseExponent_exact n (Nat.le_max_right _ _), sign_apply_mul, sign_apply_mul,
    ← Int.add_mul]

theorem add_form (s t : Sign) {m n : Nat} (h : (s.apply m + t.apply n).natAbs < 2 ^ 53) :
    ∃ u : Sign, u.apply (s.apply m + t.apply n).natAbs = s.apply m + t.apply n ∧
      add .binary64 (form s m) (form t n) = form u (s.apply m + t.apply n).natAbs := by
  have hzero (s : Sign) : s.apply 0 = 0 := by cases s <;> rfl
  rcases Nat.eq_zero_or_pos m with rfl | hm <;> rcases Nat.eq_zero_or_pos n with rfl | hn
  · simp only [Int.natCast_zero, hzero, form_zero, add]
    split <;> exact ⟨_, hzero _, rfl⟩
  · refine ⟨t, by simp [hzero], ?_⟩
    simp only [Int.natCast_zero, hzero, Int.zero_add, natAbs_sign_apply, Int.natAbs_natCast,
      form_zero, form_pos t hn, add]
  · refine ⟨s, by simp [hzero], ?_⟩
    simp only [Int.natCast_zero, hzero, Int.add_zero, natAbs_sign_apply, Int.natAbs_natCast,
      form_zero, form_pos s hm, add]
  · obtain ⟨j, hadd⟩ := add_form_eq_normalize s t hm hn
    obtain ⟨u, hu, hnorm⟩ := normalize_exact .positive h j
    exact ⟨u, hu, hadd.trans hnorm⟩

/-- A sum of whole numbers that takes more than 53 bits is stored with a positive exponent. -/
theorem add_form_beyond (s t : Sign) {m n : Nat} (hm : m < 2 ^ 53) (hn : n < 2 ^ 53)
    (h : 2 ^ 53 ≤ (s.apply m + t.apply n).natAbs) :
    ∃ (u : Sign) (k : Nat) (e : Int) (hk : 0 < k), k.log2 = 52 ∧ 0 < e ∧ e ≤ 2 ∧
      stored (add .binary64 (form s m) (form t n)) = .finite u k e hk := by
  have hsum : (s.apply m + t.apply n).natAbs ≤ m + n := by
    simpa using Int.natAbs_add_le (s.apply m) (t.apply n)
  obtain ⟨j, hadd⟩ := add_form_eq_normalize s t (m := m) (n := n) (by omega) (by omega)
  obtain ⟨u, -, hnorm⟩ := normalize_eq_round .positive
    (a := s.apply m + t.apply n) (by omega) j
  obtain ⟨k, e, hk, hlog, hpos, hle, hround⟩ := round_beyond u h (by omega) j
  refine ⟨u, k, e, hk, hlog, hpos, hle, ?_⟩
  rw [hadd, hnorm, hround, stored_finite u hk hlog (by omega) (by omega)]

theorem mul_form (s t : Sign) {m n : Nat} (h : m * n < 2 ^ 53) :
    mul .binary64 (form s m) (form t n) = form (s * t) (m * n) := by
  rcases Nat.eq_zero_or_pos m with rfl | hm <;> rcases Nat.eq_zero_or_pos n with rfl | hn
  · rfl
  · rw [form_pos t hn, form_zero, Nat.zero_mul]; rfl
  · rw [form_pos s hm, form_zero, Nat.mul_zero]; rfl
  · have hlog : m.log2 + n.log2 ≤ (m * n).log2 := by
      rw [Nat.le_log2 (by positivity), Nat.pow_add]
      exact Nat.mul_le_mul (Nat.log2_self_le (by omega)) (Nat.log2_self_le (by omega))
    have hmant : m * 2 ^ (52 - m.log2) * (n * 2 ^ (52 - n.log2)) =
        m * n * 2 ^ (52 - m.log2 + (52 - n.log2)) := by rw [Nat.pow_add]; ring
    have hexp : -((52 - m.log2 : Nat) : Int) + -((52 - n.log2 : Nat) : Int) =
        -((52 - m.log2 + (52 - n.log2) : Nat) : Int) := by omega
    simp only [form_pos s hm, form_pos t hn, mul, hmant, hexp]
    rw [roundWithAccuracy_exact (s * t) (Nat.mul_pos hm hn) h (by omega),
      form_pos _ (Nat.mul_pos hm hn)]

theorem unpack_powerOfTen : ∀ e ≤ 15, ∀ h : e < Float.exactlyRepresentablePowersOfTen.size,
    Float.exactlyRepresentablePowersOfTen[e].toModel.unpack = form .positive (10 ^ e) := by
  decide +kernel

theorem unpack_toFloat {n : Nat} (h : n < 2 ^ 53) :
    n.toUInt64.toFloat.toModel.unpack = form .positive n := by
  have hn : n.toUInt64.toNat = n := by
    rw [Nat.toUInt64, UInt64.toNat_ofNat_of_lt']
    exact h.trans (by decide)
  have hnorm : UnpackedFloat.normalize .binary64 n 0 .positive = form .positive n := by
    rcases Nat.eq_zero_or_pos n with rfl | hn
    · rfl
    · have := round_exact .positive hn h 0
      rw [UnpackedFloat.normalize, Int.compare_eq_gt.mpr (by omega), form_pos _ hn]
      simpa using this
  change stored (UnpackedFloat.normalize .binary64 n.toUInt64.toNat 0 .positive) = _
  rw [hn, hnorm, stored_form _ h]

theorem unpack_ofScientific {m e : Nat} (he : e ≤ 15) (h : m * 10 ^ e < 2 ^ 53) :
    (Float.ofScientific m false e).toModel.unpack = form .positive (m * 10 ^ e) := by
  have hm : m < 2 ^ 53 := by
    refine Nat.lt_of_le_of_lt ?_ h
    exact Nat.le_mul_of_pos_right _ (by positivity)
  rw [Float.ofScientific, dif_pos ⟨hm, by omega⟩]
  simp only [Bool.false_eq_true, if_false]
  rw [unpack_mul, unpack_toFloat hm, unpack_powerOfTen e he, mul_form _ _ h,
    stored_form _ h]
  rfl

theorem unpack_ofInt {a : Int} (h : a.natAbs < 2 ^ 53) :
    (Float.ofInt a).toModel.unpack = form (if a < 0 then .negative else .positive) a.natAbs := by
  have hnat (n : Nat) (h : n < 2 ^ 53) : (Float.ofNat n).toModel.unpack = form .positive n := by
    have := unpack_ofScientific (m := n) (e := 0) (by omega) (by simpa using h)
    rw [Nat.pow_zero, Nat.mul_one] at this
    exact this
  cases a with
  | ofNat n => exact hnat n h
  | negSucc n =>
    change stored (neg (Float.ofNat (n + 1)).toModel.unpack) = _
    rw [hnat _ (by simpa using h), neg_form, stored_form _ (by simpa using h)]
    simp [Int.negSucc_lt_zero]
    rfl

end Double

end PrinterShadow
