import PrinterShadow.Proofs.Double.Unsigned
import PrinterShadow.Proofs.Double.Value

/-!
Reading decimals as the nearest double. There is one rounding, of a product or a quotient with a
power of ten: where the digits and the exponent are small both are doubles, and elsewhere they are
taken exactly. What is too large for that is infinity, and what is too small is zero.
-/

namespace PrinterShadow

namespace Double

open Float.Model (UnpackedFloat)
open Float.Model.UnpackedFloat hiding unpack pack round normalize

theorem exists_unpack_toFloat {n : Nat} (hn : 0 < n) (h : n < 2 ^ 53) :
    ∃ (m : Nat) (e : Int) (hm : 0 < m), n.toUInt64.toFloat.toModel.unpack =
      .finite .positive m e hm ∧ 2 ^ 52 ≤ m ∧ magnitude m e = n := by
  have hlog : n.log2 < 53 := (Nat.log2_lt (Nat.ne_of_gt hn)).mpr h
  refine ⟨_, _, _, (unpack_toFloat h).trans (form_pos _ hn), ?_, ?_⟩
  · calc 2 ^ 52 = 2 ^ n.log2 * 2 ^ (52 - n.log2) := by rw [← Nat.pow_add]; congr 1; omega
      _ ≤ n * 2 ^ (52 - n.log2) :=
        Nat.mul_le_mul_right _ (Nat.log2_self_le (Nat.ne_of_gt hn))
  · rw [magnitude_mul_two_pow, Int.add_left_neg]
    simp [magnitude]

/-- Whether a result is a power of ten. -/
def IsPowerOfTen (k : Nat) : UnpackedFloat → Prop
  | .finite .positive m e _ =>
    2 ^ 52 ≤ m ∧ Exact.numerator m e = 10 ^ k * Exact.denominator e
  | _ => False

instance (k : Nat) : DecidablePred (IsPowerOfTen k)
  | .finite .positive _ _ _ => inferInstanceAs (Decidable (_ ∧ _))
  | .finite .negative _ _ _ | .zero _ | .infinity _ | .notANumber => .isFalse id

/-- The powers of ten that decimals are read with are exact. -/
theorem exists_unpack_powerOfTen {k : Nat} (hk : k ≤ 22) :
    ∃ (m : Nat) (e : Int) (hm : 0 < m),
      (∀ h : k < Float.exactlyRepresentablePowersOfTen.size,
        Float.exactlyRepresentablePowersOfTen[k].toModel.unpack = .finite .positive m e hm) ∧
        2 ^ 52 ≤ m ∧ magnitude m e = 10 ^ k := by
  have hall : ∀ k ≤ 22, ∀ h : k < Float.exactlyRepresentablePowersOfTen.size,
      IsPowerOfTen k Float.exactlyRepresentablePowersOfTen[k].toModel.unpack := by
    decide +kernel
  have hsize : k < Float.exactlyRepresentablePowersOfTen.size := Nat.lt_succ_of_le hk
  have hpower := hall k hk hsize
  generalize hunpack : Float.exactlyRepresentablePowersOfTen[k].toModel.unpack = x at hpower
  rcases x with s | _ | s | ⟨_ | _, m, e, hm⟩
  case finite.positive =>
    refine ⟨m, e, hm, fun _ => hunpack, hpower.1, ?_⟩
    have hden : (Exact.denominator e : ℚ) ≠ 0 := by
      exact_mod_cast Nat.ne_of_gt (Nat.two_pow_pos _)
    rw [magnitude_eq_div, hpower.2, Nat.cast_mul, mul_div_cancel_right₀ _ hden]
    push_cast
    rfl
  all_goals exact hpower.elim

theorem magnitude_of_whole (n : Nat) : magnitude n 0 = n := by simp [magnitude]

theorem cast_pow_natAbs {f : Int} (hf : 0 ≤ f) : ((10 ^ f.natAbs : Nat) : ℚ) = 10 ^ f := by
  obtain ⟨k, rfl⟩ := Int.eq_ofNat_of_zero_le hf
  push_cast
  rw [zpow_natCast, Int.natAbs_natCast]

theorem div_cast_pow_natAbs {f : Int} (hf : f < 0) (q : ℚ) :
    q / ((10 ^ f.natAbs : Nat) : ℚ) = q * 10 ^ f := by
  obtain ⟨k, rfl⟩ : ∃ k : Nat, f = -k := ⟨f.natAbs, by omega⟩
  rw [zpow_neg, zpow_natCast, Int.natAbs_neg, Int.natAbs_natCast, div_eq_mul_inv]
  push_cast
  rfl

/-- What is below half of the least magnitude is rounded to zero. -/
theorem nearest_zero {q : ℚ} (hq : 0 ≤ q) (h : 2 * q < magnitude 1 (-1074)) :
    Nearest q 0 (-1074) where
  canonical := by decide
  near {m e} h' := by
    rcases Nat.eq_zero_or_pos m with rfl | hm
    · rw [magnitude_zero, magnitude_zero]
    · have hleast := least_le_magnitude hm h'.least
      rw [magnitude_zero, abs_of_nonpos (by linarith), abs_of_nonneg (by linarith)]
      linarith
  even _ _ _ := ⟨0, rfl⟩

/-- The decimal is read from its digits as the nearest double. -/
theorem scientific_nearest {n : Nat} (hn : 0 < n) (f : Int) :
    ∃ m e, stored (UnpackedFloat.ofScientific .binary64 n f) = stored (assemble .positive m e) ∧
      Nearest (n * 10 ^ f) m e := by
  unfold UnpackedFloat.ofScientific
  rw [dif_neg (Nat.ne_of_gt hn)]
  split_ifs with hupper hlower hsign
  · have hupper' : 2 ^ 11 < f := hupper
    obtain ⟨k, rfl⟩ := Int.eq_ofNat_of_zero_le (show 0 ≤ f by omega)
    obtain ⟨m, e, -, hnearest⟩ :=
      exists_round .positive (Nat.mul_pos hn (Nat.pow_pos (n := k) (by decide : 0 < 10))) 0
    have hvalue : magnitude (n * 10 ^ k) 0 = n * 10 ^ (k : Int) := by
      rw [magnitude_of_whole]
      push_cast
      rw [zpow_natCast]
    rw [hvalue] at hnearest
    refine ⟨m, e, (stored_infinity _).trans (hnearest.rounds.stored_beyond ?_ _).symm, hnearest⟩
    have hn' : (1 : ℚ) ≤ n := by exact_mod_cast hn
    calc (2 : ℚ) ^ (1024 : Int) ≤ 10 ^ (1024 : Int) :=
          zpow_le_zpow_left₀ (by decide) (by norm_num) (by norm_num)
      _ ≤ 10 ^ (k : Int) := zpow_le_zpow_right₀ (by norm_num) (by omega)
      _ ≤ n * 10 ^ (k : Int) := le_mul_of_one_le_left (by positivity) hn'
  · refine ⟨0, -1074, rfl, nearest_zero (by positivity) ?_⟩
    have hn' : (n : ℚ) < 2 ^ ((n.log2 : Int) + 1) := by exact_mod_cast Nat.lt_log2_self
    have hten : (10 : ℚ) ^ f ≤ 2 ^ f := by
      obtain ⟨j, rfl⟩ : ∃ j : Nat, f = -j := ⟨f.natAbs, by omega⟩
      rw [zpow_neg, zpow_neg, zpow_natCast, zpow_natCast]
      exact inv_anti₀ (by positivity) (pow_le_pow_left₀ (by norm_num) (by norm_num) j)
    have hlower' : f < -(2 ^ 11 + (n.log2 : Int)) := hlower
    calc 2 * ((n : ℚ) * 10 ^ f) < 2 * (2 ^ ((n.log2 : Int) + 1) * 10 ^ f) :=
          mul_lt_mul_of_pos_left (mul_lt_mul_of_pos_right hn' (by positivity)) two_pos
      _ ≤ 2 * (2 ^ ((n.log2 : Int) + 1) * 2 ^ f) :=
          mul_le_mul_of_nonneg_left (mul_le_mul_of_nonneg_left hten (by positivity)) two_pos.le
      _ = 2 ^ (1 + ((n.log2 : Int) + 1 + f)) := by
          rw [zpow_add₀ two_ne_zero 1, zpow_add₀ two_ne_zero _ f, zpow_one]
      _ ≤ 2 ^ (-1074 : Int) := zpow_le_zpow_right₀ one_le_two (by omega)
      _ = magnitude 1 (-1074) := by simp [magnitude]
  · have hlong : 2 ^ 52 ≤ n <<< 53 * 10 ^ f.toNat := by
      rw [Nat.shiftLeft_eq]
      calc 2 ^ 52 ≤ n * 2 ^ 53 := by omega
        _ ≤ n * 2 ^ 53 * 10 ^ f.toNat := Nat.le_mul_of_pos_right _ (by positivity)
    obtain ⟨m, e, hmul, hnearest⟩ := exists_mul .positive .positive (e := -(53 : Nat)) (f := 0)
      (by rw [Nat.shiftLeft_eq]; positivity) (by positivity) (.inl hlong)
    refine ⟨m, e, congrArg stored hmul, ?_⟩
    have hexp : f.toNat = f.natAbs := by omega
    rwa [Nat.shiftLeft_eq, magnitude_mul_two_pow, Int.add_left_neg, magnitude_of_whole,
      magnitude_of_whole, hexp, cast_pow_natAbs hsign] at hnearest
  · obtain ⟨m, e, hdiv, hnearest⟩ := exists_div .positive .positive 0 0 hn
      (Nat.pow_pos (n := (-f).toNat) (by decide : 0 < 10))
    refine ⟨m, e, congrArg stored hdiv, ?_⟩
    have hexp : (-f).toNat = f.natAbs := by omega
    rwa [magnitude_of_whole, magnitude_of_whole, hexp,
      div_cast_pow_natAbs (by omega)] at hnearest

/-- A decimal is read as the nearest double: by one product or quotient with an exact power of ten
where the digits and the exponent are small, and from all its digits elsewhere. -/
theorem ofScientific_nearest {n : Nat} (hn : 0 < n) (f : Int) :
    ∃ m e, (Float.ofScientific n (f < 0) f.natAbs).toModel.unpack =
      stored (assemble .positive m e) ∧ Nearest (n * 10 ^ f) m e := by
  by_cases hfast : n < 2 ^ 53 ∧ f.natAbs ≤ 22
  · obtain ⟨m₁, e₁, hm₁, hdigits, hlong₁, hvalue₁⟩ := exists_unpack_toFloat hn hfast.1
    obtain ⟨m₂, e₂, hm₂, hpower, hlong₂, hvalue₂⟩ := exists_unpack_powerOfTen hfast.2
    rw [Float.ofScientific, dif_pos hfast]
    split_ifs with hsign
    · obtain ⟨m, e, hdiv, hnearest⟩ := exists_div .positive .positive e₁ e₂ hm₁ hm₂
      refine ⟨m, e, ?_, ?_⟩
      · rw [unpack_div, hdigits, hpower, hdiv]
        rfl
      · rw [← div_cast_pow_natAbs (of_decide_eq_true hsign)]
        push_cast
        rwa [hvalue₁, hvalue₂] at hnearest
    · have hlong : 2 ^ 52 ≤ m₁ * m₂ := hlong₁.trans (Nat.le_mul_of_pos_right _ hm₂)
      have hf : 0 ≤ f := not_lt.mp (by simpa using hsign)
      obtain ⟨m, e, hmul, hnearest⟩ :=
        exists_mul .positive .positive (e := e₁) (f := e₂) hm₁ hm₂ (.inl hlong)
      refine ⟨m, e, ?_, ?_⟩
      · rw [unpack_mul, hdigits, hpower, hmul]
        rfl
      · rw [← cast_pow_natAbs hf]
        push_cast
        rwa [hvalue₁, hvalue₂] at hnearest
  · have hexp :
        (if decide (f < 0) = true then Int.negOfNat f.natAbs else Int.ofNat f.natAbs) = f := by
      split_ifs with hsign
      · have hneg := of_decide_eq_true hsign
        rw [Int.negOfNat_eq]
        change -(f.natAbs : Int) = f
        omega
      · have hf : 0 ≤ f := not_lt.mp (by simpa using hsign)
        exact Int.natAbs_of_nonneg hf
    rw [Float.ofScientific, dif_neg hfast]
    dsimp only
    rw [hexp]
    exact scientific_nearest hn f

end Double

end PrinterShadow
