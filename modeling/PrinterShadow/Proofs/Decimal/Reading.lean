import PrinterShadow.Decimal.Fixed
import PrinterShadow.Decimal.Numeral
import PrinterShadow.Proofs.Double.Whole

/-!
What is written to a number of places reads back as the decimal that it was rounded to; a whole
double reads back as itself. Whatever a text holds, no numeral of it reads as no number.
-/

namespace PrinterShadow

namespace Decimal

theorem isDigit_of_mem_lastDigits {width n : Nat} {ch : Char} (h : ch ∈ lastDigits width n) :
    ch.isDigit := by
  induction width generalizing n with
  | zero => nomatch h
  | succ width ih =>
    rcases List.mem_append.mp h with h | h
    · exact ih h
    · rw [List.mem_singleton.mp h, Nat.isDigit_digitChar, decide_eq_true_eq]
      exact Nat.mod_lt n (by decide)

theorem ofDigitChars_lastDigits (width n init : Nat) :
    Nat.ofDigitChars 10 (lastDigits width n) init = 10 ^ width * init + n % 10 ^ width := by
  induction width generalizing n with
  | zero => simp [lastDigits, Nat.mod_one]
  | succ width ih =>
    rw [lastDigits, Nat.ofDigitChars_append, ih,
      Nat.ofDigitChars_cons_digitChar_of_lt_ten (Nat.mod_lt n (by decide)), Nat.ofDigitChars_nil]
    have hmod : n % 10 ^ (width + 1) = n % 10 + 10 * (n / 10 % 10 ^ width) := by
      rw [Nat.pow_succ', Nat.mod_mul]
    rw [hmod, Nat.pow_succ']
    ring

/-- The digits before the point and the places after it are those of the whole number. -/
theorem ofDigitChars_places (places n : Nat) :
    Nat.ofDigitChars 10 (Nat.toDigits 10 (n / 10 ^ places) ++ lastDigits places n) 0 = n := by
  rw [Nat.ofDigitChars_append, Nat.ofDigitChars_ten_toDigits, ofDigitChars_lastDigits]
  exact Nat.div_add_mod n _

/-- A point and digits, or nothing where there are no digits. -/
def fractionChars : List Char → List Char
  | [] => []
  | ch :: frac => '.' :: ch :: frac

theorem pointed_eq (places n : Nat) : pointed places n =
    Nat.toDigits 10 (n / 10 ^ places) ++ fractionChars (lastDigits places n) := by
  cases places with
  | zero => simp [pointed, lastDigits, fractionChars]
  | succ places =>
    have hne : lastDigits (places + 1) n ≠ [] := by simp [lastDigits]
    obtain ⟨ch, frac, heq⟩ := List.exists_cons_of_ne_nil hne
    rw [pointed, heq]
    · rfl
    · exact Nat.succ_ne_zero places

theorem exists_toDigits (n : Nat) :
    ∃ ch rest, Nat.toDigits 10 n = ch :: rest ∧ ch.isDigit := by
  obtain ⟨ch, rest, heq⟩ := List.exists_cons_of_ne_nil (Nat.toDigits_ne_nil (n := n) (b := 10))
  exact ⟨ch, rest, heq,
    Nat.isDigit_of_mem_toDigits (by decide) (by decide) (heq ▸ List.mem_cons_self)⟩

/-- Stripping keeps the value, and what it leaves does not end in zero. -/
theorem stripZeros_spec {n : Nat} (hn : 0 < n) (e : Int) :
    ∃ k m : Nat, stripZeros n e = (m, e + k) ∧ n = m * 10 ^ k ∧ m % 10 ≠ 0 := by
  induction n using Nat.strong_induction_on generalizing e with
  | _ n ih =>
    unfold stripZeros
    split_ifs with hend
    · obtain ⟨k, m, hstrip, hvalue, hlast⟩ := ih (n / 10) (by omega) (by omega) (e + 1)
      refine ⟨k + 1, m, ?_, ?_, hlast⟩
      · rw [hstrip, Int.natCast_add, Int.add_assoc, Int.add_comm 1]; rfl
      · rw [Nat.pow_succ, ← Nat.mul_assoc, ← hvalue]
        omega
    · refine ⟨0, n, by simp, by simp, ?_⟩
      rintro h
      exact hend ⟨hn, h⟩

/-- A whole number that is written with places reduces to an exponent that is not negative. -/
theorem reduce_whole (negative : Bool) {n : Nat} (hn : 0 < n) (places : Nat) :
    ∃ k m : Nat, reduce ⟨negative, n * 10 ^ places, -places⟩ = ⟨negative, m, k⟩ ∧
      n = m * 10 ^ k := by
  have hpos : 0 < n * 10 ^ places := by positivity
  obtain ⟨k, m, hstrip, hvalue, hlast⟩ := stripZeros_spec hpos (-places)
  have hle : places ≤ k := by
    by_contra hlt
    obtain ⟨j, rfl⟩ := Nat.exists_eq_add_of_lt (Nat.lt_of_not_le hlt)
    rw [Nat.add_assoc, Nat.pow_add, Nat.mul_left_comm, Nat.mul_comm m,
      Nat.mul_right_inj (by positivity), Nat.pow_succ, ← Nat.mul_assoc] at hvalue
    omega
  obtain ⟨j, rfl⟩ := Nat.exists_eq_add_of_le hle
  refine ⟨j, m, ?_, ?_⟩
  · simp only [reduce, hstrip, if_neg (Nat.ne_of_gt hpos)]
    congr 1
    omega
  · rw [Nat.add_comm, Nat.pow_add, ← Nat.mul_assoc] at hvalue
    exact Nat.eq_of_mul_eq_mul_right (by positivity) hvalue

open Double in
/-- A whole number below `2 ^ 53` reads as itself, with whatever places it is written. -/
theorem whole_toFloat (negative : Bool) {n : Nat} (hn : n < 2 ^ 53) (places : Nat) :
    Whole (toFloat ⟨negative, n * 10 ^ places, -places⟩) (if negative then -n else n) := by
  have hmagnitude : ∃ m k : Nat, reduce ⟨negative, n * 10 ^ places, -places⟩ = ⟨negative, m, k⟩ ∧
      Whole (Float.ofScientific m false k) n := by
    rcases Nat.eq_zero_or_pos n with rfl | hpos
    · exact ⟨0, 0, by simp [reduce], by decide +kernel⟩
    · obtain ⟨k, m, hreduce, hvalue⟩ := reduce_whole negative hpos places
      refine ⟨m, k, hreduce, whole_iff.mpr ⟨.positive, n, by omega, rfl, ?_⟩⟩
      have hk : k ≤ 15 := by
        by_contra hlt
        have hm : 0 < m := by
          rcases Nat.eq_zero_or_pos m with rfl | hm
          · omega
          · exact hm
        have hpow : 10 ^ 16 ≤ 10 ^ k := Nat.pow_le_pow_right (by decide) (by omega)
        have hmul := Nat.le_mul_of_pos_left (10 ^ k) hm
        omega
      rw [unpack_ofScientific hk (by omega), ← hvalue]
  obtain ⟨m, k, hreduce, hwhole⟩ := hmagnitude
  have hexp : decide ((k : Int) < 0) = false := by simp
  simp only [toFloat, hreduce, hexp, Int.natAbs_natCast]
  cases negative with
  | true => exact hwhole.neg
  | false => exact hwhole

theorem toFloat_ne_nan (d : Decimal) : d.toFloat ≠ .nan := by
  rw [toFloat]
  split
  · exact Double.neg_ne_nan (Double.ofScientific_ne_nan _ _ _)
  · exact Double.ofScientific_ne_nan _ _ _

end Decimal

namespace Numeral

open Decimal (signed pointed lastDigits)

theorem digits_append_of {run rest : List Char} (hrun : ∀ ch ∈ run, ch.isDigit)
    (hrest : ∀ ch ∈ rest.head?, ch.isDigit = false) : digits (run ++ rest) = (run, rest) := by
  have hstop : rest.takeWhile Char.isDigit = [] ∧ rest.dropWhile Char.isDigit = rest := by
    cases rest with
    | nil => exact ⟨rfl, rfl⟩
    | cons ch rest => simp [hrest ch rfl]
  rw [digits, List.takeWhile_append_of_pos hrun, List.dropWhile_append_of_pos hrun, hstop.1,
    hstop.2, List.append_nil]

theorem digits_of_all {run : List Char} (hrun : ∀ ch ∈ run, ch.isDigit) :
    digits run = (run, []) := by
  have hrest : ∀ ch ∈ ([] : List Char).head?, ch.isDigit = false := nofun
  simpa using digits_append_of hrun hrest

theorem sign_signed (negative : Bool) {ch : Char} (h : ch.isDigit) (rest : List Char) :
    sign (signed negative (ch :: rest)) = (negative, ch :: rest) := by
  cases negative with
  | true => rfl
  | false =>
    have hminus : ch ≠ '-' := by rintro rfl; nomatch h
    have hplus : ch ≠ '+' := by rintro rfl; nomatch h
    simp [signed, sign, hminus, hplus]

theorem isDigit_of_mem_toDigits {n : Nat} {ch : Char} (h : ch ∈ Nat.toDigits 10 n) : ch.isDigit :=
  Nat.isDigit_of_mem_toDigits (by decide) (by decide) h

theorem isDigit_of_mem_head?_fractionChars {frac : List Char} {ch : Char}
    (h : ch ∈ (Decimal.fractionChars frac).head?) : ch.isDigit = false := by
  cases frac with
  | nil => nomatch h
  | cons c frac =>
    obtain rfl := Option.some.inj h
    rfl

theorem fraction_fractionChars {frac : List Char} (h : ∀ ch ∈ frac, ch.isDigit) :
    fraction (Decimal.fractionChars frac) = (frac, []) := by
  cases frac with
  | nil => rfl
  | cons ch frac => exact digits_of_all h

/-- A written numeral is digits up to its point. -/
theorem digits_pointed (places n : Nat) : digits (pointed places n) =
    (Nat.toDigits 10 (n / 10 ^ places), Decimal.fractionChars (lastDigits places n)) := by
  rw [Decimal.pointed_eq]
  exact digits_append_of (fun _ => isDigit_of_mem_toDigits)
    fun _ => isDigit_of_mem_head?_fractionChars

theorem sign_signed_pointed (negative : Bool) (places n : Nat) :
    sign (signed negative (pointed places n)) = (negative, pointed places n) := by
  obtain ⟨ch, rest, hdigits, hdigit⟩ := Decimal.exists_toDigits (n / 10 ^ places)
  rw [Decimal.pointed_eq, hdigits]
  exact sign_signed negative hdigit _

/-- A written numeral is read to its end, and as the decimal that was written. -/
theorem split?_pointed (negative : Bool) (places n : Nat) :
    split? (signed negative (pointed places n)) = some (⟨negative, n, -places⟩, []) := by
  have hfraction : fraction (Decimal.fractionChars (lastDigits places n)) =
      (lastDigits places n, []) :=
    fraction_fractionChars fun _ => Decimal.isDigit_of_mem_lastDigits
  have hne : ¬ (Nat.toDigits 10 (n / 10 ^ places) = [] ∧ lastDigits places n = []) :=
    fun h => Nat.toDigits_ne_nil h.1
  simp only [split?, sign_signed_pointed, digits_pointed, hfraction, if_neg hne, exponent,
    Decimal.ofDigitChars_places, Decimal.length_lastDigits, Int.zero_sub]

end Numeral

theorem Decimal.mem_pointed {places n : Nat} {ch : Char} (h : ch ∈ pointed places n) :
    ch.isDigit ∨ ch = '.' := by
  unfold pointed at h
  split at h
  · exact .inl (Numeral.isDigit_of_mem_toDigits h)
  · rcases List.mem_append.mp h with h | h
    · exact .inl (Numeral.isDigit_of_mem_toDigits h)
    · rcases List.mem_cons.mp h with h | h
      · exact .inr h
      · exact .inl (isDigit_of_mem_lastDigits h)

theorem leadingNumber?_ne_nan {text : List Char} {v : Float} (h : leadingNumber? text = some v) :
    v ≠ .nan := by
  obtain ⟨⟨decimal, rest⟩, -, rfl⟩ := Option.map_eq_some_iff.mp h
  exact decimal.toFloat_ne_nan

theorem roundDiv_mul (n : Nat) {d : Nat} (hd : 0 < d) : roundDiv (n * d) d = n := by
  simp [roundDiv, Nat.mul_div_cancel n hd, hd]

namespace Fixed

/-- What is written reads back, and only numbers do. -/
theorem leadingNumber?_chars (v : Fixed) : leadingNumber? v.chars = v.toFloat? := by
  cases v with
  | finite negative units places =>
    rw [leadingNumber?, chars, Numeral.split?_pointed]
    rfl
  | infinite negative => cases negative <;> rfl
  | notANumber => rfl

open Double in
/-- A whole double is written exactly. -/
theorem toFloat?_ofFloat {x : Float} {a : Int} (h : Whole x a) (places : Nat) :
    ∃ y, (ofFloat places x).toFloat? = some y ∧ Whole y a := by
  obtain ⟨negative, j, hsign, hexact⟩ := h.exact
  have hunits : roundDiv (Exact.numerator (a.natAbs * 2 ^ j) (-j) * Nat.pow 10 places)
      (Exact.denominator (-j)) = a.natAbs * 10 ^ places := by
    rw [Exact.numerator_neg, Exact.denominator_neg, Nat.mul_right_comm]
    exact roundDiv_mul _ (Nat.two_pow_pos j)
  refine ⟨Decimal.toFloat ⟨negative, a.natAbs * 10 ^ places, -places⟩, ?_, ?_⟩
  · simp only [ofFloat, hexact, hunits, toFloat?]
  · have hread := Decimal.whole_toFloat negative h.1 places
    rwa [hsign] at hread

end Fixed

end PrinterShadow
