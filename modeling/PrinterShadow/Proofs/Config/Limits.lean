import PrinterShadow.Error
import PrinterShadow.Proofs.Double.Order

/-!
The limits of a configuration without faults: the bounds of every axis are finite and in order, and
what is clamped lies between them.
-/

namespace PrinterShadow

open Double

namespace Limits

def Contains (l : Limits) (value : Float) : Prop :=
  l.lower ≤ value ∧ value ≤ l.upper

instance (l : Limits) (value : Float) : Decidable (l.Contains value) :=
  inferInstanceAs (Decidable (_ ∧ _))

/-- What a configuration without faults says of each axis. -/
structure Valid (l : Limits) : Prop where
  lower : l.lower.isFinite
  upper : l.upper.isFinite
  ordered : l.lower ≤ l.upper
  home : l.Contains l.home

variable {l : Limits} {value : Float}

theorem not_excludes_of_contains (h : l.Contains value) : ¬ l.Excludes value := by
  rintro (hlt | hlt)
  · exact not_lt_of_le h.1 hlt
  · exact not_lt_of_le h.2 hlt

theorem excludes_congr {other : Float} (h : value == other) :
    l.Excludes value ↔ l.Excludes other := by
  rw [Excludes, Excludes, lt_congr_left h, lt_congr_right h]

theorem clamp_congr {other : Float} (h : value == other) : l.clamp value == l.clamp other := by
  simp only [clamp, ← lt_congr_left h, ← lt_congr_right h]
  split_ifs with hlower hupper
  · exact beq_self_iff.mpr (ne_nan_of_lt hlower).2
  · exact beq_self_iff.mpr (ne_nan_of_lt hupper).1
  · exact h

theorem contains_of_not_excludes (hl : l.lower.isFinite) (hu : l.upper.isFinite)
    (hv : value ≠ .nan) (h : ¬ l.Excludes value) : l.Contains value := by
  rw [Excludes, not_or] at h
  exact ⟨le_of_not_lt hv (ne_nan_of_isFinite hl) h.1, le_of_not_lt (ne_nan_of_isFinite hu) hv h.2⟩

theorem Valid.contains_lower (h : l.Valid) : l.Contains l.lower :=
  ⟨le_refl (ne_nan_of_isFinite h.lower), h.ordered⟩

theorem Valid.contains_upper (h : l.Valid) : l.Contains l.upper :=
  ⟨h.ordered, le_refl (ne_nan_of_isFinite h.upper)⟩

theorem Valid.contains_clamp (h : l.Valid) (hv : value ≠ .nan) : l.Contains (l.clamp value) := by
  by_cases hout : l.Excludes value
  · unfold clamp
    split
    · exact h.contains_lower
    · rw [if_pos (hout.resolve_left ‹_›)]
      exact h.contains_upper
  · rw [clamp_of_not_excludes hout]
    exact contains_of_not_excludes h.lower h.upper hv hout

/-- What is clamped lies beyond no bound, even where it is no number. -/
theorem Valid.not_excludes_clamp (h : l.Valid) (value : Float) : ¬ l.Excludes (l.clamp value) := by
  unfold clamp
  split
  · exact not_excludes_of_contains h.contains_lower
  · split
    · exact not_excludes_of_contains h.contains_upper
    · exact not_or.mpr ⟨‹_›, ‹_›⟩

theorem Valid.clamp_clamp (h : l.Valid) (value : Float) :
    l.clamp (l.clamp value) = l.clamp value :=
  clamp_of_not_excludes (h.not_excludes_clamp value)

theorem Valid.isFinite_of_contains (h : l.Valid) (hv : l.Contains value) : value.isFinite :=
  isFinite_of_between h.lower h.upper hv.1 hv.2

theorem valid_of_limitsFault?_eq_none {a : Cartesian} (h : Config.limitsFault? a l = none) :
    l.Valid := by
  unfold Config.limitsFault? at h
  split_ifs at h with hfin hord hhome
  simp only [isFinite, Bool.not_eq_true, Bool.not_eq_false', Bool.and_eq_true] at hfin
  obtain ⟨⟨hlower, hupper⟩, hfinite⟩ := hfin
  exact ⟨hlower, hupper, le_of_not_lt (ne_nan_of_isFinite hupper) (ne_nan_of_isFinite hlower) hord,
    contains_of_not_excludes hlower hupper (ne_nan_of_isFinite hfinite) hhome⟩

end Limits

namespace Config

variable {c : Config}

theorem validate_eq_ok_iff_fault? : c.validate = .ok () ↔ c.fault? = none := by
  unfold validate
  cases c.fault? <;> simp

/-- A configuration is accepted where none of the checks finds a fault. -/
theorem validate_eq_ok_iff : c.validate = .ok () ↔
    (∀ a, limitsFault? a (c.limits.get a) = none) ∧ c.jogFault? = none ∧
      c.extruderFault? = none := by
  have haxes : (∀ a ∈ Cartesian.all, limitsFault? a (c.limits.get a) = none) ↔
      ∀ a, limitsFault? a (c.limits.get a) = none :=
    ⟨fun h a => h a a.mem_all, fun h a _ => h a⟩
  rw [validate_eq_ok_iff_fault?, fault?, Option.orElse_eq_orElse, Option.orElse_eq_or,
    Option.or_eq_none_iff, Option.orElse_eq_or, Option.or_eq_none_iff,
    List.findSome?_eq_none_iff, haxes]

/-- The limits of every axis of a configuration that is accepted. -/
theorem valid_limits (h : c.validate = .ok ()) (a : Cartesian) : (c.limits.get a).Valid :=
  Limits.valid_of_limitsFault?_eq_none ((validate_eq_ok_iff.mp h).1 a)

theorem jogSpeeds_of_validate (h : c.validate = .ok ()) :
    ¬ c.xyJogSpeed ≤ 0 ∧ ¬ c.zJogSpeed ≤ 0 := by
  have hjog := (validate_eq_ok_iff.mp h).2.1
  unfold jogFault? at hjog
  split_ifs at hjog with hfault
  exact not_or.mp hfault

theorem extruderCount_le_of_validate (h : c.validate = .ok ()) : c.extruderCount ≤ maxExtruders := by
  have hcount := (validate_eq_ok_iff.mp h).2.2
  unfold extruderFault? at hcount
  split_ifs at hcount with hfault
  exact Nat.le_of_not_lt hfault

end Config

end PrinterShadow
