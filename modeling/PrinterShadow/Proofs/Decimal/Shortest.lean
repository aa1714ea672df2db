import PrinterShadow.Decimal.Shortest
import PrinterShadow.Proofs.Decimal.Rounding

/-!
The shortest digits of a double read back as the double. A hit of the search is read back when it is
found, and the exact value that stands behind the search is read exactly. What is written in place of
these, reduced or without an exponent, has their value, and decimals of one value read as one double.
-/

namespace PrinterShadow

namespace Decimal

open Float.Model (UnpackedFloat)
open Double (Canonical magnitude)

/-! ## Decimals of one value -/

theorem stripZeros_mul_pow {n : Nat} (hn : 0 < n) (k : Nat) (e : Int) :
    stripZeros (n * 10 ^ k) e = stripZeros n (e + k) := by
  induction k generalizing e with
  | zero => simp
  | succ k ih =>
    have hpos : 0 < n * 10 ^ (k + 1) := by positivity
    have hsplit : n * 10 ^ (k + 1) = n * 10 ^ k * 10 := by rw [Nat.pow_succ, Nat.mul_assoc]
    have hend : n * 10 ^ (k + 1) % 10 = 0 := by rw [hsplit, Nat.mul_mod_left]
    have hrest : n * 10 ^ (k + 1) / 10 = n * 10 ^ k := by
      rw [hsplit, Nat.mul_div_cancel _ (by decide)]
    rw [stripZeros, if_pos ⟨hpos, hend⟩, hrest, ih]
    congr 1
    omega

theorem toFloat_mul_pow (negative : Bool) (n k : Nat) (e : Int) :
    toFloat ⟨negative, n * 10 ^ k, e⟩ = toFloat ⟨negative, n, e + k⟩ := by
  have hreduce : reduce ⟨negative, n * 10 ^ k, e⟩ = reduce ⟨negative, n, e + k⟩ := by
    rcases Nat.eq_zero_or_pos n with rfl | hn
    · simp [reduce]
    · have hpos : 0 < n * 10 ^ k := by positivity
      simp only [reduce, if_neg (Nat.ne_of_gt hn), if_neg (Nat.ne_of_gt hpos),
        stripZeros_mul_pow hn]
  simp only [toFloat, hreduce]

theorem toFloat_reduce (d : Decimal) : d.reduce.toFloat = d.toFloat := by
  obtain ⟨negative, n, e⟩ := d
  rcases Nat.eq_zero_or_pos n with rfl | hn
  · simp [toFloat, reduce]
  · obtain ⟨k, m, hstrip, rfl, -⟩ := stripZeros_spec hn e
    have hreduce : reduce ⟨negative, m * 10 ^ k, e⟩ = ⟨negative, m, e + k⟩ := by
      simp only [reduce, if_neg (Nat.ne_of_gt hn), hstrip]
    rw [hreduce, toFloat_mul_pow]

/-- A decimal whose value a double has is read as that double. -/
theorem unpack_toFloat_exact {n m : Nat} {f e : Int} (hm : 0 < m) (hcanonical : Canonical m e)
    (he : e ≤ 971) (h : (n : ℚ) * 10 ^ f = magnitude m e) :
    (toFloat ⟨false, n, f⟩).toModel.unpack = .finite .positive m e hm := by
  obtain ⟨m', e', hunpack, hnearest⟩ := toFloat_nearest n f
  rw [h] at hnearest
  obtain ⟨rfl, rfl⟩ := hnearest.rounds.exact hcanonical
  rw [hunpack, Double.stored_assemble .positive hcanonical, if_pos he,
    Double.assemble_pos .positive _ hm]

/-! ## The search -/

theorem eq_of_readsAs {x : Float} {place : Int} {n : Nat} (h : readsAs x place n) :
    toFloat ⟨false, n, place⟩ = x :=
  Float.toBits_inj.mp (eq_of_beq h)

theorem onGrid?_spec {x : Float} {num den : Nat} {place : Int} {d : Decimal}
    (h : onGrid? x num den place = some d) : d.negative = false ∧ d.toFloat = x := by
  unfold onGrid? at h
  extract_lets scaledNum scaledDen low high nearer at h
  split at h
  next hlow hhigh =>
    obtain rfl := Option.some.inj h
    refine ⟨rfl, ?_⟩
    show toFloat ⟨false, nearer, place⟩ = x
    by_cases hnear : 2 * (scaledNum % scaledDen) < scaledDen
    · rw [show nearer = low from if_pos hnear]
      exact eq_of_readsAs hlow
    · rw [show nearer = high from if_neg hnear]
      exact eq_of_readsAs hhigh
  next hlow hhigh =>
    obtain rfl := Option.some.inj h
    exact ⟨rfl, eq_of_readsAs hlow⟩
  next hlow hhigh =>
    obtain rfl := Option.some.inj h
    exact ⟨rfl, eq_of_readsAs hhigh⟩
  next => nomatch h

theorem ofBinary_eq (m : Nat) (e : Int) :
    ∃ (n : Nat) (f : Int), ofBinary m e = ⟨false, n, f⟩ ∧ (n : ℚ) * 10 ^ f = magnitude m e := by
  unfold ofBinary magnitude
  split_ifs with hneg
  · refine ⟨_, _, rfl, ?_⟩
    obtain ⟨k, rfl⟩ : ∃ k : Nat, e = -k := ⟨e.natAbs, by omega⟩
    have hten : (10 : ℚ) ^ k = 5 ^ k * 2 ^ k := by rw [← mul_pow]; norm_num
    have hfive : (5 : ℚ) ^ k ≠ 0 := by positivity
    have htwo : (2 : ℚ) ^ k ≠ 0 := by positivity
    rw [Int.natAbs_neg, Int.natAbs_natCast, zpow_neg, zpow_neg, zpow_natCast, zpow_natCast, hten,
      Nat.pow_eq]
    push_cast
    field_simp
  · refine ⟨_, _, rfl, ?_⟩
    obtain ⟨k, rfl⟩ := Int.eq_ofNat_of_zero_le (not_lt.mp hneg)
    rw [Int.natAbs_natCast, zpow_zero, zpow_natCast, mul_one, Nat.pow_eq]
    push_cast
    rfl

theorem unpack_ofBinary {m : Nat} {e : Int} (hm : 0 < m) (hcanonical : Canonical m e)
    (he : e ≤ 971) : (ofBinary m e).toFloat.toModel.unpack = .finite .positive m e hm := by
  obtain ⟨n, f, hbinary, hvalue⟩ := ofBinary_eq m e
  rw [hbinary]
  exact unpack_toFloat_exact hm hcanonical he hvalue

theorem shortestOf_spec {x : Float} {m : Nat} {e : Int} {hm : 0 < m}
    (h : x.toModel.unpack = .finite .positive m e hm) :
    (shortestOf x m e).negative = false ∧ (shortestOf x m e).toFloat = x := by
  unfold shortestOf
  extract_lets num den lead found
  have hreduce (d : Decimal) : d.reduce.negative = d.negative := by
    unfold reduce
    split <;> rfl
  rw [hreduce, toFloat_reduce]
  cases hfound : found with
  | some d =>
    obtain ⟨n, -, hgrid⟩ := List.exists_of_findSome?_eq_some hfound
    exact onGrid?_spec hgrid
  | none =>
    obtain ⟨hcanonical, he⟩ := Double.canonical_of_unpack h
    obtain ⟨n, f, hbinary, -⟩ := ofBinary_eq m e
    refine ⟨by rw [Option.getD_none, hbinary], Double.unpack_inj ?_⟩
    rw [Option.getD_none, unpack_ofBinary hm hcanonical he, h]

theorem toFloat_shortest_of_unpack {x : Float} {s : UnpackedFloat.Sign} {m : Nat} {e : Int}
    {hm : 0 < m} (h : x.toModel.unpack = .finite s m e hm) :
    (shortest x (s matches .negative) m e).toFloat = x := by
  obtain ⟨hcanonical, he⟩ := Double.canonical_of_unpack h
  have habs : x.abs.toModel.unpack = .finite .positive m e hm := by
    rw [Double.unpack_abs, h]
    exact Double.stored_canonical .positive hm hcanonical he
  have hspec := shortestOf_spec habs
  rw [shortest, if_neg (Nat.ne_of_gt hm)]
  generalize shortestOf x.abs m e = d at hspec ⊢
  obtain ⟨negative, n, f⟩ := d
  obtain ⟨rfl, hread⟩ : negative = false ∧ toFloat ⟨negative, n, f⟩ = x.abs := hspec
  cases s with
  | positive =>
    change toFloat ⟨false, n, f⟩ = x
    rw [hread]
    exact Double.unpack_inj (habs.trans h.symm)
  | negative =>
    change toFloat ⟨true, n, f⟩ = x
    rw [toFloat_negative, hread]
    refine Double.unpack_inj ?_
    rw [Double.unpack_neg, habs, h]
    exact Double.stored_canonical .negative hm hcanonical he

/-- The shortest decimal of a finite double reads as the double, the sign of a zero included. -/
theorem toFloat_shortest {x : Float} {negative : Bool} {m : Nat} {e : Int}
    (h : Exact.ofFloat x = .finite negative m e) : (shortest x negative m e).toFloat = x := by
  have hzero (s : UnpackedFloat.Sign) :
      (toFloat ⟨s matches .negative, 0, 0⟩).toModel.unpack = .zero s := by
    cases s <;> rfl
  unfold Exact.ofFloat at h
  split at h
  next => nomatch h
  next => nomatch h
  next s hunpack =>
    obtain ⟨rfl, rfl, rfl⟩ := Exact.finite.inj h
    refine Double.unpack_inj (Eq.trans ?_ hunpack.symm)
    cases s with
    | positive => exact hzero .positive
    | negative => exact hzero .negative
  next s m' e' hm hunpack =>
    obtain ⟨rfl, rfl, rfl⟩ := Exact.finite.inj h
    cases s with
    | positive => exact toFloat_shortest_of_unpack hunpack
    | negative => exact toFloat_shortest_of_unpack hunpack

end Decimal

end PrinterShadow
