import PrinterShadow.Proofs.Double.Value
import PrinterShadow.Proofs.Config.Limits

/-!
How far sums and differences grow. Numbers up to `k` and `l` times a large power of two have a sum
up to `k + l` times it, rounding included, since the bound itself is a double; as long as such a
bound is below the range of doubles, nothing overflows.
-/

namespace PrinterShadow

namespace Double

open Float.Model (UnpackedFloat)
open Float.Model.UnpackedFloat hiding unpack pack round normalize

/-- Whether a double is finite and at most `k` times `2 ^ 1000` from zero. -/
structure Within (k : Nat) (x : Float) : Prop where
  finite : x.isFinite
  le : |value x| ≤ k * 2 ^ 1000

namespace Unpacked

def Within (k : Nat) : UnpackedFloat → Prop
  | .zero _ => True
  | .finite _ m e _ => magnitude m e ≤ k * 2 ^ 1000
  | _ => False

instance (k : Nat) : DecidablePred (Within k)
  | .zero _ => .isTrue trivial
  | .finite _ m e _ => inferInstanceAs (Decidable (magnitude m e ≤ k * 2 ^ 1000))
  | .notANumber | .infinity _ => .isFalse id

theorem exists_canonical {k : Nat} (hk : 0 < k) (h : k < 2 ^ 53) {e : Int} (he : -1022 ≤ e) :
    ∃ m' e', Canonical m' e' ∧ magnitude m' e' = magnitude k e := by
  have hne := Nat.ne_of_gt hk
  have hlog : k.log2 < 53 := (Nat.log2_lt hne).mpr h
  refine ⟨k * 2 ^ (52 - k.log2), e - (52 - k.log2 : Nat), ⟨?_, by omega, .inr ?_⟩, ?_⟩
  · calc k * 2 ^ (52 - k.log2) < 2 ^ (k.log2 + 1) * 2 ^ (52 - k.log2) :=
          Nat.mul_lt_mul_of_pos_right Nat.lt_log2_self (Nat.two_pow_pos _)
      _ = 2 ^ 53 := by rw [← Nat.pow_add]; congr 1; omega
  · calc 2 ^ 52 = 2 ^ k.log2 * 2 ^ (52 - k.log2) := by rw [← Nat.pow_add]; congr 1; omega
      _ ≤ k * 2 ^ (52 - k.log2) := Nat.mul_le_mul_right _ (Nat.log2_self_le hne)
  · rw [magnitude_mul_two_pow, Int.sub_add_cancel]

/-- What is rounded stays within a bound that is a double, and so does not overflow. -/
theorem magnitude_le_of_rounds {q : ℚ} {m k : Nat} {e : Int} (h : Rounds q m e)
    (hq : q ≤ k * 2 ^ 1000) (hk : k < 2 ^ 24) : magnitude m e ≤ k * 2 ^ 1000 ∧ e ≤ 971 := by
  have hle : magnitude m e ≤ k * 2 ^ 1000 := by
    rcases Nat.eq_zero_or_pos k with rfl | hpos
    · have hzero : Canonical 0 (-1074) := by decide
      have hround := h.le hzero (by simpa using hq)
      simpa using hround
    · obtain ⟨m', e', hcanonical, hvalue⟩ :=
        exists_canonical hpos (hk.trans (by decide)) (e := 1000) (by decide)
      have hbound : magnitude m' e' = k * 2 ^ 1000 := hvalue.trans rfl
      have hround := h.le hcanonical (hbound ▸ hq)
      rwa [hbound] at hround
  refine ⟨hle, h.canonical.magnitude_lt_iff.mp (hle.trans_lt ?_)⟩
  have hk' : (k : ℚ) < 2 ^ 24 := by exact_mod_cast hk
  calc (k : ℚ) * 2 ^ 1000 < 2 ^ 24 * 2 ^ 1000 := mul_lt_mul_of_pos_right hk' (by positivity)
    _ = 2 ^ (1024 : Int) := by rw [← pow_add]; rfl

variable {k l : Nat} {x y : UnpackedFloat}

theorem within_stored_assemble (s : Sign) {q : ℚ} {m : Nat} {e : Int} (h : Rounds q m e)
    (hq : q ≤ k * 2 ^ 1000) (hk : k < 2 ^ 24) : Within k (stored (assemble s m e)) := by
  obtain ⟨hle, he⟩ := magnitude_le_of_rounds h hq hk
  rw [stored_assemble s h.canonical, if_pos he]
  unfold assemble
  split
  · trivial
  · exact hle

theorem within_stored_normalize {a e : Int} (ha : magnitude a.natAbs e ≤ k * 2 ^ 1000)
    (hk : k < 2 ^ 24) (s : Sign) : Within k (stored (UnpackedFloat.normalize .binary64 a e s)) := by
  have hround (s' : Sign) {n : Nat} (hn : 0 < n) (hle : magnitude n e ≤ k * 2 ^ 1000) :
      Within k (stored (UnpackedFloat.round .binary64 s' n e)) := by
    obtain ⟨m, e', hround, hnearest⟩ := exists_round s' hn e
    rw [hround]
    exact within_stored_assemble s' hnearest.rounds hle hk
  unfold UnpackedFloat.normalize
  split
  case h_1 h =>
    have hneg := Int.compare_eq_lt.mp h
    have heq : (-a).toNat = a.natAbs := by omega
    exact hround _ (by omega) (heq ▸ ha)
  case h_2 h =>
    rw [stored_zero]
    trivial
  case h_3 h =>
    have hpos := Int.compare_eq_gt.mp h
    have heq : a.toNat = a.natAbs := by omega
    exact hround _ (by omega) (heq ▸ ha)

theorem Within.mono (h : Within k x) (hkl : k ≤ l) : Within l x := by
  have hcast : (k : ℚ) * 2 ^ 1000 ≤ l * 2 ^ 1000 :=
    mul_le_mul_of_nonneg_right (by exact_mod_cast hkl) (by positivity)
  cases x with
  | zero s => trivial
  | finite s m e hm => exact le_trans (h : magnitude m e ≤ k * 2 ^ 1000) hcast
  | notANumber => exact h
  | infinity s => exact h

theorem within_neg (h : Within k x) : Within k (neg x) := by
  cases x <;> exact h

theorem magnitude_natAbs_add_le (s t : Sign) (m n : Nat) (e : Int) :
    magnitude (s.apply m + t.apply n).natAbs e ≤ magnitude m e + magnitude n e := by
  have hle : (s.apply (m : Int) + t.apply (n : Int)).natAbs ≤ m + n := by
    refine (Int.natAbs_add_le _ _).trans ?_
    rw [natAbs_sign_apply, natAbs_sign_apply]
    rfl
  have hcast : ((s.apply (m : Int) + t.apply (n : Int)).natAbs : ℚ) ≤ m + n := by exact_mod_cast hle
  calc magnitude (s.apply m + t.apply n).natAbs e ≤ (m + n) * 2 ^ e :=
        mul_le_mul_of_nonneg_right hcast (by positivity)
    _ = magnitude m e + magnitude n e := add_mul _ _ _

end Unpacked

theorem abs_signed (s : Sign) {q : ℚ} (hq : 0 ≤ q) : |signed s q| = q := by
  cases s with
  | negative => rw [signed, abs_neg, abs_of_nonneg hq]
  | positive => exact abs_of_nonneg hq

theorem within_iff {k : Nat} {x : Float} : Within k x ↔ Unpacked.Within k x.toModel.unpack := by
  have hiff : Within k x ↔ x.toModel.unpack.isFinite ∧ |value x| ≤ k * 2 ^ 1000 :=
    ⟨fun h => ⟨h.1, h.2⟩, fun h => ⟨h.1, h.2⟩⟩
  rw [hiff]
  cases hx : x.toModel.unpack with
  | notANumber => simp [isFinite, Unpacked.Within]
  | infinity s => simp [isFinite, Unpacked.Within]
  | zero s =>
    rw [value_of_zero hx, abs_zero]
    exact ⟨fun _ => trivial, fun _ => ⟨rfl, by positivity⟩⟩
  | finite s m e hm =>
    rw [value_of_unpack hx, abs_signed s (magnitude_nonneg m e)]
    exact ⟨fun h => h.2, fun h => ⟨rfl, h⟩⟩

instance (k : Nat) : DecidablePred (Within k) :=
  fun _ => decidable_of_iff _ within_iff.symm

namespace Within

variable {k l : Nat} {x y : Float}

theorem mono (h : Within k x) (hkl : k ≤ l) : Within l x :=
  within_iff.mpr ((within_iff.mp h).mono hkl)

theorem add (hx : Within k x) (hy : Within l y) (hk : k + l < 2 ^ 24) : Within (k + l) (x + y) := by
  have hxsum := within_iff.mp (hx.mono (Nat.le_add_right k l))
  have hysum := within_iff.mp (hy.mono (Nat.le_add_left l k))
  rw [← stored_unpack] at hxsum hysum
  rw [within_iff] at hx hy ⊢
  rw [unpack_add]
  generalize x.toModel.unpack = x, y.toModel.unpack = y at hx hy hxsum hysum ⊢
  cases x with
  | notANumber => exact hx.elim
  | infinity s => exact hx.elim
  | zero s =>
    cases y with
    | notANumber => exact hy.elim
    | infinity t => exact hy.elim
    | zero t =>
      simp only [UnpackedFloat.add]
      split <;> rw [stored_zero] <;> trivial
    | finite t n f hn => exact hysum
  | finite s m e hm =>
    cases y with
    | notANumber => exact hy.elim
    | infinity t => exact hy.elim
    | zero t => exact hxsum
    | finite t n f hn =>
      refine Unpacked.within_stored_normalize ?_ hk _
      refine (Unpacked.magnitude_natAbs_add_le s t _ _ _).trans ?_
      rw [magnitude_shiftLeft m (min_le_left e f),
        magnitude_shiftLeft n (min_le_right e f), Nat.cast_add, add_mul]
      exact add_le_add hx hy

theorem unpack_neg (hy : Within l y) : (-y).toModel.unpack = neg y.toModel.unpack := by
  rw [Double.unpack_neg]
  have hy := within_iff.mp hy
  cases hyu : y.toModel.unpack with
  | notANumber => rfl
  | infinity t => exact stored_infinity _
  | zero t => exact stored_zero _
  | finite t n f hn =>
    obtain ⟨hcanonical, hf⟩ := canonical_of_unpack hyu
    exact stored_canonical _ hn hcanonical hf

theorem neg (hy : Within l y) : Within l (-y) := by
  rw [within_iff, hy.unpack_neg]
  exact Unpacked.within_neg (within_iff.mp hy)

theorem sub (hx : Within k x) (hy : Within l y) (hk : k + l < 2 ^ 24) : Within (k + l) (x - y) := by
  have hsub : x - y = x + -y := by
    refine unpack_inj ?_
    rw [unpack_sub, sub_eq_add_neg, unpack_add, hy.unpack_neg]
  rw [hsub]
  exact hx.add hy.neg hk

theorem zero : Within k 0 := within_iff.mpr trivial

end Within

end Double

theorem Limits.within_clamp {l : Limits} {k : Nat} {x : Float} (hlower : Double.Within k l.lower)
    (hupper : Double.Within k l.upper) (hx : Double.Within k x) : Double.Within k (l.clamp x) := by
  unfold clamp
  split
  · exact hlower
  · split
    · exact hupper
    · exact hx

end PrinterShadow
