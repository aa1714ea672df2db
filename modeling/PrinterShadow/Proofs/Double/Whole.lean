import PrinterShadow.Decimal.Exact
import PrinterShadow.Proofs.Double.Order

/-!
Doubles that are whole numbers below `2 ^ 53` in absolute value. Sums and differences of such
doubles are exact as long as they are such doubles too.
-/

namespace PrinterShadow

namespace Exact

theorem isFinite_iff {x : Float} :
    x.isFinite ↔ ∃ negative m e, ofFloat x = .finite negative m e := by
  change x.toModel.unpack.isFinite = true ↔ _
  unfold ofFloat
  cases x.toModel.unpack <;> simp [Float.Model.UnpackedFloat.isFinite]

theorem numerator_neg (mantissa j : Nat) : numerator mantissa (-j) = mantissa := by
  have hexp : (-(j : Int)).toNat = 0 := by omega
  rw [numerator, hexp]
  exact Nat.mul_one mantissa

theorem denominator_neg (j : Nat) : denominator (-j) = 2 ^ j := by
  rw [denominator, Int.neg_neg]
  rfl

end Exact

namespace Double

open Float.Model (UnpackedFloat)
open Float.Model.UnpackedFloat hiding unpack pack round normalize

/-- The double is the whole number `a`, below `2 ^ 53` in absolute value. -/
def Whole (x : Float) (a : Int) : Prop := a.natAbs < 2 ^ 53 ∧ x == Float.ofInt a

instance (x : Float) (a : Int) : Decidable (Whole x a) := inferInstanceAs (Decidable (_ ∧ _))

theorem whole_iff {x : Float} {a : Int} : Whole x a ↔
    ∃ (s : Sign) (n : Nat), n < 2 ^ 53 ∧ s.apply n = a ∧ x.toModel.unpack = form s n := by
  constructor
  · rintro ⟨h, heq⟩
    have heq := (beq_iff_ne_notANumber_and_eq _ _).mp heq
    rw [unpack_ofInt h] at heq
    rcases heq with ⟨-, -, heq | ⟨hx, ha⟩ | ⟨hx, ha⟩⟩
    · refine ⟨_, _, h, ?_, heq⟩
      split <;> simp only [Sign.apply] <;> omega
    all_goals
      rcases Nat.eq_zero_or_pos a.natAbs with h0 | hpos
      · refine ⟨_, 0, by decide, ?_, hx⟩
        cases Int.natAbs_eq_zero.mp h0; rfl
      · rw [form_pos _ hpos] at ha; cases ha
  · rintro ⟨s, n, h, ha, hx⟩
    obtain rfl : a.natAbs = n := by rw [← ha]; simp
    refine ⟨h, (beq_iff_ne_notANumber_and_eq _ _).mpr ?_⟩
    rw [hx, unpack_ofInt h]
    rcases Nat.eq_zero_or_pos a.natAbs with h0 | hpos
    · rw [h0]
      split <;> cases s <;> decide
    · have hs : s = if a < 0 then .negative else .positive := by
        cases s <;> simp only [Sign.apply] at ha <;> split <;> first | rfl | omega
      rw [← hs, form_pos s hpos]
      simp

/-- The double is below `2 ^ 53` in absolute value. -/
def Small (x : Float) : Prop := x.abs < 9007199254740992

instance (x : Float) : Decidable (Small x) := inferInstanceAs (Decidable (_ < _))

/-- A double with a positive exponent is not below `2 ^ 53`. -/
theorem not_small {x : Float} {s : Sign} {k : Nat} {e : Int} {hk : 0 < k} (hlog : k.log2 = 52)
    (hpos : 0 < e) (hle : e ≤ 971) (h : x.toModel.unpack = .finite s k e hk) : ¬ Small x := by
  have hbound : (9007199254740992 : Float).toModel.unpack =
      .finite .positive (2 ^ 52) 1 (by decide) := by decide +kernel
  have habs : x.abs.toModel.unpack = .finite .positive k e hk := by
    rw [unpack_abs, h]
    exact stored_finite .positive hk hlog (by omega) hle
  have hk52 := ((Nat.log2_eq_iff (Nat.ne_of_gt hk)).mp hlog).1
  rw [Small, lt_iff_compare, habs, hbound]
  intro hlt
  simp only [UnpackedFloat.compare, Option.some.injEq, Ordering.then_eq_lt, Int.compare_eq_lt,
    Nat.compare_eq_lt] at hlt
  omega

namespace Whole

variable {x y : Float} {a b : Int}

theorem add (hx : Whole x a) (hy : Whole y b) (h : (a + b).natAbs < 2 ^ 53) :
    Whole (x + y) (a + b) := by
  obtain ⟨s, m, hm, rfl, hfx⟩ := whole_iff.mp hx
  obtain ⟨t, n, hn, rfl, hfy⟩ := whole_iff.mp hy
  obtain ⟨u, hu, hadd⟩ := add_form s t h
  refine whole_iff.mpr ⟨u, _, h, hu, ?_⟩
  rw [unpack_add, hfx, hfy, hadd, stored_form _ h]

theorem neg (hx : Whole x a) : Whole (-x) (-a) := by
  obtain ⟨s, m, hm, rfl, hfx⟩ := whole_iff.mp hx
  refine whole_iff.mpr ⟨-s, m, hm, sign_apply_neg s m, ?_⟩
  rw [unpack_neg, hfx, neg_form, stored_form _ hm]

theorem sub_eq (x : Float) (hy : Whole y b) : x - y = x + -y := by
  obtain ⟨t, n, hn, rfl, hfy⟩ := whole_iff.mp hy
  apply unpack_inj
  rw [unpack_sub, unpack_add, unpack_neg, hfy, neg_form, stored_form _ hn, sub_eq_add_neg, neg_form]

theorem sub (hx : Whole x a) (hy : Whole y b) (h : (a - b).natAbs < 2 ^ 53) :
    Whole (x - y) (a - b) := by
  rw [hy.sub_eq, Int.sub_eq_add_neg]
  exact hx.add hy.neg h

/-- A sum below `2 ^ 53` was not rounded. -/
theorem of_add (hx : Whole x a) (hy : Whole y b) (h : Small (x + y)) : Whole (x + y) (a + b) := by
  by_cases hlt : (a + b).natAbs < 2 ^ 53
  · exact hx.add hy hlt
  obtain ⟨s, m, hm, rfl, hfx⟩ := whole_iff.mp hx
  obtain ⟨t, n, hn, rfl, hfy⟩ := whole_iff.mp hy
  obtain ⟨u, k, e, hk, hlog, hpos, hle, hadd⟩ := add_form_beyond s t hm hn (by omega)
  have hsum : (x + y).toModel.unpack = .finite u k e hk := by rw [unpack_add, hfx, hfy, hadd]
  exact absurd h (not_small hlog hpos (by omega) hsum)

theorem of_sub (hx : Whole x a) (hy : Whole y b) (h : Small (x - y)) : Whole (x - y) (a - b) := by
  rw [hy.sub_eq] at h ⊢
  exact hx.of_add hy.neg h

theorem beq (hx : Whole x a) (hy : Whole y a) : x == y :=
  BEq.trans hx.2 (BEq.symm hy.2)

theorem add_beq (hx : Whole x a) (hy : Whole y b) {z : Float} (hz : Whole z (a + b)) :
    x + y == z :=
  (hx.add hy hz.1).beq hz

theorem sub_beq (hx : Whole x a) (hy : Whole y b) {z : Float} (hz : Whole z (a - b)) :
    x - y == z :=
  (hx.sub hy hz.1).beq hz

theorem sub_sub_self (hx : Whole x a) (hy : Whole y b) (h : (a - b).natAbs < 2 ^ 53) :
    x - (x - y) == y := by
  refine hx.sub_beq (hx.sub hy h) ?_
  rwa [sub_sub_cancel]

theorem of_beq (h : x == y) (hy : Whole y a) : Whole x a := ⟨hy.1, BEq.trans h hy.2⟩

end Whole

/-- The whole part of a double, without a bound; 0 for what is not finite. -/
def wholeOf (x : Float) : Int :=
  match Exact.ofFloat x with
  | .finite negative mantissa exponent =>
    let whole := Exact.numerator mantissa exponent / Exact.denominator exponent
    if negative then -whole else whole
  | _ => 0

theorem Whole.exact {x : Float} {a : Int} (h : Whole x a) :
    ∃ (negative : Bool) (j : Nat), (if negative then -(a.natAbs : Int) else a.natAbs) = a ∧
      Exact.ofFloat x = .finite negative (a.natAbs * 2 ^ j) (-j) := by
  obtain ⟨s, n, hn, rfl, hfx⟩ := whole_iff.mp h
  rw [natAbs_sign_apply, Int.natAbs_natCast]
  rcases Nat.eq_zero_or_pos n with rfl | hpos
  · cases s
    · exact ⟨true, 0, rfl, by simp [Exact.ofFloat, hfx, form_zero]; rfl⟩
    · exact ⟨false, 0, rfl, by simp [Exact.ofFloat, hfx, form_zero]; rfl⟩
  · cases s
    · exact ⟨true, 52 - n.log2, rfl, by simp [Exact.ofFloat, hfx, form_pos _ hpos]; rfl⟩
    · exact ⟨false, 52 - n.log2, rfl, by simp [Exact.ofFloat, hfx, form_pos _ hpos]; rfl⟩

theorem Whole.wholeOf_eq {x : Float} {a : Int} (h : Whole x a) : wholeOf x = a := by
  obtain ⟨negative, j, hsign, hexact⟩ := h.exact
  have hquot : Exact.numerator (a.natAbs * 2 ^ j) (-j) / Exact.denominator (-j) = a.natAbs := by
    rw [Exact.numerator_neg, Exact.denominator_neg]
    exact Nat.mul_div_cancel _ (Nat.two_pow_pos j)
  simp only [wholeOf, hexact, hquot, hsign]

/-- The double is a whole number below `2 ^ 53` in absolute value. -/
def IsWhole (x : Float) : Prop := Whole x (wholeOf x)

instance (x : Float) : Decidable (IsWhole x) := inferInstanceAs (Decidable (Whole _ _))

/-- The double is a whole number below a bound in absolute value. -/
def WholeBelow (bound : Nat) (x : Float) : Prop :=
  IsWhole x ∧ (wholeOf x).natAbs < bound

instance (bound : Nat) (x : Float) : Decidable (WholeBelow bound x) :=
  inferInstanceAs (Decidable (_ ∧ _))

theorem Whole.unique {x : Float} {a b : Int} (ha : Whole x a) (hb : Whole x b) : a = b :=
  ha.wholeOf_eq.symm.trans hb.wholeOf_eq

theorem Whole.sub_beq_self_iff {x y : Float} {a b : Int} (hx : Whole x a) (hy : Whole y b)
    (h : Small (x - y)) : x - y == x ↔ y == 0 := by
  have hdiff := hx.of_sub hy h
  constructor
  · intro heq
    have hsame := hdiff.unique (hx.of_beq heq)
    obtain rfl : b = 0 := by omega
    exact hy.beq (by decide)
  · intro hzero
    obtain rfl := hy.unique (of_beq hzero (a := 0) (by decide))
    rw [Int.sub_zero] at hdiff
    exact hdiff.beq hx

theorem Whole.isWhole {x : Float} {a : Int} (h : Whole x a) : IsWhole x := by
  rw [IsWhole, h.wholeOf_eq]
  exact h

end Double

end PrinterShadow
