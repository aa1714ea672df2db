import PrinterShadow.Proofs.Double.Rounding

/-!
The order of doubles and the value that is no number. Doubles other than that value are ordered
totally, equal ones compare alike, and a sum or difference with a finite operand is a number where
both operands are. What is read from decimal digits is always a number, if an infinite one.
-/

namespace PrinterShadow

namespace Double

open Float.Model (UnpackedFloat)
open Float.Model.UnpackedFloat hiding unpack pack round normalize

theorem lt_iff_compare {x y : Float} :
    x < y ↔ UnpackedFloat.compare x.toModel.unpack y.toModel.unpack = some .lt := by
  refine Iff.trans (b := x.toModel.unpack.lt y.toModel.unpack = true) ?_ beq_iff_eq
  exact decide_eq_true_iff

theorem le_iff_compare {x y : Float} : x ≤ y ↔
    (UnpackedFloat.compare x.toModel.unpack y.toModel.unpack).any (·.isLE) :=
  decide_eq_true_iff

theorem compare_swap (x y : UnpackedFloat) :
    UnpackedFloat.compare y x = (UnpackedFloat.compare x y).map Ordering.swap := by
  have hlex (e e' : Int) (m m' : Nat) : (compare e' e).then (compare m' m) =
      ((compare e e').then (compare m m')).swap := by
    rw [Ordering.swap_then, Int.compare_swap, Nat.compare_swap]
  rcases x with ⟨_ | _⟩ | _ | ⟨_ | _⟩ | ⟨_ | _, m, e, hm⟩ <;>
    rcases y with ⟨_ | _⟩ | _ | ⟨_ | _⟩ | ⟨_ | _, m', e', hm'⟩ <;>
    first | rfl | simp [UnpackedFloat.compare, hlex e e' m m']

theorem compare_eq_none {x y : UnpackedFloat} :
    UnpackedFloat.compare x y = none ↔ x = .notANumber ∨ y = .notANumber := by
  fun_cases UnpackedFloat.compare x y <;> simp_all

/-- Doubles that are numbers are ordered totally. -/
theorem le_of_not_lt {x y : Float} (hx : x ≠ .nan) (hy : y ≠ .nan) (h : ¬ x < y) : y ≤ x := by
  rw [lt_iff_compare] at h
  rw [le_iff_compare, compare_swap]
  cases hc : UnpackedFloat.compare x.toModel.unpack y.toModel.unpack with
  | none =>
    rcases compare_eq_none.mp hc with h | h
    · exact absurd (unpack_eq_notANumber.mp h) hx
    · exact absurd (unpack_eq_notANumber.mp h) hy
  | some o => cases o <;> simp_all

theorem not_lt_of_le {x y : Float} (h : x ≤ y) : ¬ y < x := by
  rw [le_iff_compare] at h
  rw [lt_iff_compare, compare_swap]
  cases hc : UnpackedFloat.compare x.toModel.unpack y.toModel.unpack with
  | none => simp
  | some o =>
    rw [hc] at h
    cases o <;> simp_all

theorem le_refl {x : Float} (h : x ≠ .nan) : x ≤ x := by
  refine le_of_not_lt h h fun hlt => ?_
  have hs := compare_swap x.toModel.unpack x.toModel.unpack
  rw [lt_iff_compare.mp hlt] at hs
  nomatch hs

theorem ne_nan_of_lt {x y : Float} (h : x < y) : x ≠ .nan ∧ y ≠ .nan := by
  rw [Ne, Ne, ← unpack_eq_notANumber, ← unpack_eq_notANumber, ← not_or, ← compare_eq_none]
  rw [lt_iff_compare] at h
  simp [h]

theorem ne_nan_of_le {x y : Float} (h : x ≤ y) : x ≠ .nan ∧ y ≠ .nan := by
  rw [Ne, Ne, ← unpack_eq_notANumber, ← unpack_eq_notANumber, ← not_or, ← compare_eq_none]
  rw [le_iff_compare] at h
  intro hnone
  simp [hnone] at h

theorem le_of_lt {x y : Float} (h : x < y) : x ≤ y := by
  rw [lt_iff_compare] at h
  rw [le_iff_compare, h]
  rfl

/-- The place of a number in the order: its class and sign, then its exponent, then its mantissa. -/
def rank : UnpackedFloat → Int ×ₗ Int ×ₗ Int
  | .infinity .negative => toLex (-2, toLex (0, 0))
  | .finite .negative m e _ => toLex (-1, toLex (-e, -m))
  | .finite .positive m e _ => toLex (1, toLex (e, m))
  | .infinity .positive => toLex (2, toLex (0, 0))
  | _ => toLex (0, toLex (0, 0))

theorem compare_eq_lt_iff_rank {x y : UnpackedFloat} (hx : x ≠ .notANumber)
    (hy : y ≠ .notANumber) : UnpackedFloat.compare x y = some .lt ↔ rank x < rank y := by
  have hgt (m m' : Nat) (e e' : Int) :
      (compare e e').then (compare m m') = .gt ↔ e' < e ∨ e = e' ∧ m' < m := by
    rw [Ordering.then_eq_gt, Int.compare_eq_gt, Int.compare_eq_eq, Nat.compare_eq_gt]
  have hsign : compare Sign.negative Sign.positive = .lt := rfl
  rcases x with ⟨_ | _⟩ | _ | ⟨_ | _⟩ | ⟨_ | _, m, e, hm⟩ <;>
    rcases y with ⟨_ | _⟩ | _ | ⟨_ | _⟩ | ⟨_ | _, m', e', hm'⟩ <;>
    simp_all [UnpackedFloat.compare, rank, Prod.Lex.toLex_lt_toLex, Ordering.then_eq_lt,
      Int.compare_eq_lt, Nat.compare_eq_lt]

theorem lt_iff_rank {x y : Float} (hx : x ≠ .nan) (hy : y ≠ .nan) :
    x < y ↔ rank x.toModel.unpack < rank y.toModel.unpack := by
  rw [Ne, ← unpack_eq_notANumber] at hx hy
  rw [lt_iff_compare, compare_eq_lt_iff_rank hx hy]

theorem lt_of_le_of_lt {x y z : Float} (hxy : x ≤ y) (hyz : y < z) : x < z := by
  obtain ⟨hx, hy⟩ := ne_nan_of_le hxy
  obtain ⟨-, hz⟩ := ne_nan_of_lt hyz
  have hle := mt (lt_iff_rank hy hx).mpr (not_lt_of_le hxy)
  rw [lt_iff_rank hx hz]
  rw [lt_iff_rank hy hz] at hyz
  exact (not_lt.mp hle).trans_lt hyz

theorem compare_congr {x y : Float} (h : x == y) (z : UnpackedFloat) :
    UnpackedFloat.compare x.toModel.unpack z = UnpackedFloat.compare y.toModel.unpack z := by
  rcases ((beq_iff_ne_notANumber_and_eq _ _).mp h).2.2 with heq | ⟨hx, hy⟩ | ⟨hx, hy⟩
  · rw [heq]
  all_goals rw [hx, hy]; rcases z with ⟨_ | _⟩ | _ | _ | ⟨_ | _⟩ <;> rfl

theorem lt_congr_left {x y z : Float} (h : x == y) : x < z ↔ y < z := by
  rw [lt_iff_compare, lt_iff_compare, compare_congr h]

theorem lt_congr_right {x y z : Float} (h : x == y) : z < x ↔ z < y := by
  rw [lt_iff_compare, lt_iff_compare, compare_swap, compare_congr h, ← compare_swap]

theorem bne_congr {x y : Float} (h : x == y) (z : Float) : (x != z) = (y != z) := by
  have hsame : (x == z) = (y == z) :=
    Bool.eq_iff_iff.mpr ⟨fun hz => BEq.trans (BEq.symm h) hz, fun hz => BEq.trans h hz⟩
  exact congrArg Bool.not hsame

/-- A distance does not tell the sign of a zero. -/
theorem abs_sub_congr {x y : Float} (h : x == y) (z : Float) : (x - z).abs = (y - z).abs := by
  refine unpack_inj ?_
  rw [unpack_abs, unpack_abs, unpack_sub, unpack_sub]
  rcases ((beq_iff_ne_notANumber_and_eq _ _).mp h).2.2 with heq | ⟨hx, hy⟩ | ⟨hx, hy⟩
  · rw [heq]
  all_goals
    rw [hx, hy]
    rcases z.toModel.unpack with ⟨_ | _⟩ | _ | ⟨_ | _⟩ | ⟨s, m, e, hm⟩ <;> rfl

theorem lt_irrefl (x : Float) : ¬ x < x := fun h => not_lt_of_le (le_refl (ne_nan_of_lt h).1) h

theorem beq_self_iff {x : Float} : x == x ↔ x ≠ .nan := by
  rw [Ne, ← unpack_eq_notANumber]
  refine (beq_iff_ne_notANumber_and_eq _ _).trans ⟨fun h => h.1, fun h => ⟨h, h, .inl rfl⟩⟩

theorem exists_unpack_eq_zero {x : Float} (h : x == 0) : ∃ s, x.toModel.unpack = .zero s := by
  rcases ((beq_iff_ne_notANumber_and_eq _ _).mp h).2.2 with heq | ⟨hx, -⟩ | ⟨hx, -⟩
  · exact ⟨_, heq⟩
  all_goals exact ⟨_, hx⟩

/-- Adding a zero, of whatever sign, changes nothing but the sign of a zero. -/
theorem add_eq_or_beq {e : Float} (he : e == 0) (x : Float) : x + e = x ∨ x + e == x := by
  obtain ⟨s, hs⟩ := exists_unpack_eq_zero he
  have hadd : (x + e).toModel.unpack = stored (add .binary64 x.toModel.unpack (.zero s)) := by
    rw [unpack_add, hs]
  by_cases hzero : ∃ s', x.toModel.unpack = .zero s'
  · obtain ⟨s', hx⟩ := hzero
    obtain ⟨s'', hsum⟩ : ∃ s'', (x + e).toModel.unpack = .zero s'' := by
      rw [hadd, hx, add]
      split <;> exact ⟨_, stored_zero _⟩
    refine .inr ((beq_iff_ne_notANumber_and_eq (x + e).toModel.unpack x.toModel.unpack).mpr ?_)
    rw [hsum, hx]
    cases s' <;> cases s'' <;> simp
  · refine .inl (unpack_inj (hadd.trans (Eq.trans ?_ (stored_unpack x))))
    congr 1
    cases hx : x.toModel.unpack with
    | zero s' => exact absurd ⟨s', hx⟩ hzero
    | _ => rfl

theorem lt_add_iff {e : Float} (he : e == 0) {x z : Float} : z < x + e ↔ z < x := by
  rcases add_eq_or_beq he x with heq | hbeq
  · rw [heq]
  · exact lt_congr_right hbeq

theorem ne_nan_of_isFinite {x : Float} (h : x.isFinite) : x ≠ .nan := by
  rintro rfl; nomatch h

/-- What lies between finite bounds is finite. -/
theorem isFinite_of_between {l u x : Float} (hl : l.isFinite) (hu : u.isFinite) (hlx : l ≤ x)
    (hxu : x ≤ u) : x.isFinite := by
  rw [le_iff_compare] at hlx hxu
  change UnpackedFloat.isFinite _ = true at hl hu ⊢
  generalize l.toModel.unpack = l, u.toModel.unpack = u, x.toModel.unpack = x at *
  rcases x with s | _ | s | ⟨s, m, e, hm⟩
  · cases s <;> cases l <;> cases u <;> simp_all [UnpackedFloat.compare, isFinite]
  · cases l <;> simp [UnpackedFloat.compare] at hlx
  · rfl
  · rfl

theorem roundWithAccuracy_ne_notANumber (s : Sign) (m : Nat) (e : Int) (acc : Accuracy) :
    roundWithAccuracy .binary64 s m e acc ≠ .notANumber := by
  simp only [roundWithAccuracy]
  split <;> simp

theorem normalize_ne_notANumber (a e : Int) (zs : Sign) :
    UnpackedFloat.normalize .binary64 a e zs ≠ .notANumber := by
  unfold UnpackedFloat.normalize
  split
  · exact roundWithAccuracy_ne_notANumber _ _ _ _
  · simp
  · exact roundWithAccuracy_ne_notANumber _ _ _ _

theorem add_ne_notANumber {x y : UnpackedFloat} (hx : x ≠ .notANumber) (hy : y ≠ .notANumber)
    (h : x.isFinite ∨ y.isFinite) : add .binary64 x y ≠ .notANumber := by
  cases x <;> cases y <;> simp_all [add, isFinite, normalize_ne_notANumber]
  split <;> simp

/-- A sum with a finite summand is no number only where the other summand is none. -/
theorem add_ne_nan {x y : Float} (hx : x ≠ .nan) (hy : y ≠ .nan) (h : x.isFinite ∨ y.isFinite) :
    x + y ≠ .nan := by
  rw [Ne, ← unpack_eq_notANumber] at hx hy ⊢
  rw [unpack_add, stored_eq_notANumber]
  exact add_ne_notANumber hx hy h

theorem neg_ne_notANumber {x : UnpackedFloat} (h : x ≠ .notANumber) : neg x ≠ .notANumber := by
  cases x <;> simp_all [neg]

theorem sub_ne_nan {x y : Float} (hx : x ≠ .nan) (hy : y ≠ .nan) (h : x.isFinite ∨ y.isFinite) :
    x - y ≠ .nan := by
  rw [Ne, ← unpack_eq_notANumber] at hx hy ⊢
  rw [unpack_sub, stored_eq_notANumber, sub_eq_add_neg]
  refine add_ne_notANumber hx (neg_ne_notANumber hy) (h.imp_right fun hfin => ?_)
  change y.toModel.unpack.isFinite = true at hfin
  revert hfin
  cases y.toModel.unpack <;> simp [neg, isFinite]

theorem neg_ne_nan {x : Float} (h : x ≠ .nan) : -x ≠ .nan := by
  rw [Ne, ← unpack_eq_notANumber] at h ⊢
  rw [unpack_neg, stored_eq_notANumber]
  exact neg_ne_notANumber h

theorem isInf_of_not_isFinite {x : Float} (hx : x ≠ .nan) (h : ¬ x.isFinite) : x.isInf := by
  rw [Ne, ← unpack_eq_notANumber] at hx
  change ¬ x.toModel.unpack.isFinite = true at h
  change x.toModel.unpack.isInf = true
  revert hx h
  cases x.toModel.unpack <;> simp [isFinite, isInf]

theorem isInf_eq_false {x : Float} (h : x.isFinite) : x.isInf = false := by
  change x.toModel.unpack.isFinite = true at h
  change x.toModel.unpack.isInf = false
  revert h
  cases x.toModel.unpack <;> simp [isFinite, isInf]

theorem isNaN_eq_false {x : Float} (h : x ≠ .nan) : x.isNaN = false := by
  rw [Ne, ← unpack_eq_notANumber] at h
  change x.toModel.unpack.isNaN = false
  revert h
  cases x.toModel.unpack <;> simp [isNaN]

theorem mul_ne_notANumber {x y : UnpackedFloat} (hx : x.isFinite) (hy : y.isFinite) :
    mul .binary64 x y ≠ .notANumber := by
  cases x <;> cases y <;> simp_all [mul, isFinite, roundWithAccuracy_ne_notANumber]

theorem div_ne_notANumber {x y : UnpackedFloat} (hx : x.isFinite) (hy : y.isFinite)
    (h : ∀ s, y ≠ .zero s) : div .binary64 x y ≠ .notANumber := by
  cases x <;> cases y <;> simp_all [div, isFinite, roundWithAccuracy_ne_notANumber]

theorem isFinite_form (s : Sign) (n : Nat) : (form s n).isFinite := by
  unfold form
  split <;> rfl

theorem isFinite_powerOfTen : ∀ e ≤ 22, ∀ h : e < Float.exactlyRepresentablePowersOfTen.size,
    Float.exactlyRepresentablePowersOfTen[e].isFinite ∧
      ∀ s, Float.exactlyRepresentablePowersOfTen[e].toModel.unpack ≠ .zero s := by
  have hsign (x : UnpackedFloat) :
      (∀ s, x ≠ .zero s) ↔ x ≠ .zero .positive ∧ x ≠ .zero .negative :=
    ⟨fun h => ⟨h _, h _⟩, fun h s => by cases s; exacts [h.2, h.1]⟩
  simp only [hsign]
  decide +kernel

theorem scientific_ne_notANumber (m : Nat) (e : Int) :
    UnpackedFloat.ofScientific .binary64 m e ≠ .notANumber := by
  unfold UnpackedFloat.ofScientific
  split_ifs
  · exact nofun
  · exact nofun
  · exact nofun
  · exact mul_ne_notANumber rfl rfl
  · exact div_ne_notANumber rfl rfl nofun

/-- Digits that are too large for a double give an infinity, which is a number. -/
theorem ofScientific_ne_nan (m : Nat) (negative : Bool) (e : Nat) :
    Float.ofScientific m negative e ≠ .nan := by
  have hm (h : m < 2 ^ 53) : m.toUInt64.toFloat.toModel.unpack.isFinite := by
    rw [unpack_toFloat h]
    exact isFinite_form _ _
  rw [Ne, ← unpack_eq_notANumber, Float.ofScientific]
  split_ifs with h hneg hneg
  · obtain ⟨hpower, hzero⟩ := isFinite_powerOfTen e h.2 (Nat.lt_succ_of_le h.2)
    exact mt stored_eq_notANumber.mp (div_ne_notANumber (hm h.1) hpower hzero)
  · obtain ⟨hpower, -⟩ := isFinite_powerOfTen e h.2 (Nat.lt_succ_of_le h.2)
    exact mt stored_eq_notANumber.mp (mul_ne_notANumber (hm h.1) hpower)
  · exact mt stored_eq_notANumber.mp (scientific_ne_notANumber m _)
  · exact mt stored_eq_notANumber.mp (scientific_ne_notANumber m _)

end Double

end PrinterShadow
