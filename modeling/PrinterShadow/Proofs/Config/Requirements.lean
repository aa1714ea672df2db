import PrinterShadow.Proofs.Config.Limits
import PrinterShadow.Proofs.Double.Value

/-!
What is asked of a configuration, said of the numbers that its doubles stand for, and in the order
in which it is looked at. A configuration is accepted where every requirement is met, and otherwise
rejected for the first one that is not. Of a jog speed less is asked than a printer needs: any value
passes that is not zero or less, so the one that is no number does, and so does infinity.
-/

namespace PrinterShadow

open Double

namespace Config

inductive Requirement where
  /-- The bounds and the home position of an axis are finite. -/
  | finiteLimits (axis : Cartesian)
  | orderedBounds (axis : Cartesian)
  /-- The home position of an axis lies within its bounds. -/
  | homeWithin (axis : Cartesian)
  | jogSpeeds
  | extruderCount
  deriving DecidableEq, Repr

/-- What a printer can jog at: a finite speed above zero. -/
def UsableSpeed (x : Float) : Prop := x.isFinite ∧ 0 < value x

instance (x : Float) : Decidable (UsableSpeed x) := inferInstanceAs (Decidable (_ ∧ _))

/-- What passes for a speed: also the value that is no number, and infinity. -/
def PassingSpeed (x : Float) : Prop := UsableSpeed x ∨ x.isNaN ∨ x.isInf ∧ 0 < x

instance (x : Float) : Decidable (PassingSpeed x) := inferInstanceAs (Decidable (_ ∨ _))

namespace Requirement

def ofAxis (a : Cartesian) : List Requirement := [finiteLimits a, orderedBounds a, homeWithin a]

/-- The requirements in the order in which they are looked at. -/
def all : List Requirement := Cartesian.all.flatMap ofAxis ++ [jogSpeeds, extruderCount]

/-- Whether a configuration meets a requirement, given what is asked of a jog speed. -/
def Met (speed : Float → Prop) (c : Config) : Requirement → Prop
  | finiteLimits a => (c.limits.get a).isFinite
  | orderedBounds a => value (c.limits.get a).lower ≤ value (c.limits.get a).upper
  | homeWithin a =>
    value (c.limits.get a).lower ≤ value (c.limits.get a).home ∧
      value (c.limits.get a).home ≤ value (c.limits.get a).upper
  | jogSpeeds => speed c.xyJogSpeed ∧ speed c.zJogSpeed
  | extruderCount => c.extruderCount ≤ 16

instance (speed : Float → Prop) [DecidablePred speed] (c : Config) :
    DecidablePred (Met speed c)
  | finiteLimits a => inferInstanceAs (Decidable ((c.limits.get a).isFinite = true))
  | orderedBounds _ => inferInstanceAs (Decidable (_ ≤ _))
  | homeWithin _ => inferInstanceAs (Decidable (_ ∧ _))
  | jogSpeeds => inferInstanceAs (Decidable (_ ∧ _))
  | extruderCount => inferInstanceAs (Decidable (_ ≤ _))

/-- The fault of a configuration that does not meet a requirement. -/
def fault (c : Config) : Requirement → Fault
  | finiteLimits a => .notFinite a
  | orderedBounds a => .inverted a (c.limits.get a)
  | homeWithin a => .homeOutside a (c.limits.get a)
  | jogSpeeds => .jogSpeed
  | extruderCount => .tooManyExtruders c.extruderCount

def fault? (c : Config) (r : Requirement) : Option Fault :=
  if r.Met PassingSpeed c then none else some (r.fault c)

end Requirement

variable {c : Config}

theorem not_le_zero_iff (x : Float) : ¬ x ≤ 0 ↔ PassingSpeed x := by
  have hzero : (0 : Float).isFinite := rfl
  by_cases hfinite : x.isFinite
  · have hinf := isInf_eq_false hfinite
    have hnan := ne_nan_of_isFinite hfinite
    have hle : x ≤ 0 ↔ value x ≤ 0 := le_iff_value hfinite hzero
    simp [PassingSpeed, UsableSpeed, hfinite, hinf, hnan, hle]
  · by_cases hnan : x = .nan
    · subst hnan
      exact iff_of_true (by decide) (.inr (.inl rfl))
    · have hinf := isInf_of_not_isFinite hnan hfinite
      have hle : ¬ x ≤ 0 ↔ 0 < x :=
        ⟨fun h => by_contra fun hlt => h (le_of_not_lt (ne_nan_of_isFinite hzero) hnan hlt),
          fun hlt hle => not_lt_of_le hle hlt⟩
      simp [PassingSpeed, UsableSpeed, hfinite, hinf, hnan, hle]

namespace Requirement

variable {r : Requirement}

theorem fault?_eq_none_iff : r.fault? c = none ↔ r.Met PassingSpeed c := by
  simp [fault?]

theorem fault?_eq_some_iff {f : Fault} :
    r.fault? c = some f ↔ ¬ r.Met PassingSpeed c ∧ r.fault c = f := by
  simp [fault?]

/-- A check that fails just where a requirement is not met. -/
theorem ite_eq_fault? {p : Prop} [Decidable p] (h : ¬ p ↔ r.Met PassingSpeed c) :
    (if p then some (r.fault c) else none) = r.fault? c := by
  unfold fault?
  by_cases hp : p
  · rw [if_pos hp, if_neg (mt h.mpr (not_not.mpr hp))]
  · rw [if_neg hp, if_pos (h.mp hp)]

end Requirement

/-- What is found wrong with the limits of an axis is the first requirement that they do not meet. -/
theorem limitsFault?_eq (a : Cartesian) :
    limitsFault? a (c.limits.get a) = (Requirement.ofAxis a).findSome? (Requirement.fault? c) := by
  generalize hl : c.limits.get a = l
  have hord (hfinite : l.isFinite) : l.upper < l.lower ↔ ¬ value l.lower ≤ value l.upper := by
    simp only [Limits.isFinite, Bool.and_eq_true] at hfinite
    rw [lt_iff_value hfinite.1.2 hfinite.1.1, not_le]
  have hhome (hfinite : l.isFinite) : l.Excludes l.home ↔
      ¬ (value l.lower ≤ value l.home ∧ value l.home ≤ value l.upper) := by
    simp only [Limits.isFinite, Bool.and_eq_true] at hfinite
    rw [Limits.Excludes, lt_iff_value hfinite.2 hfinite.1.1, lt_iff_value hfinite.1.2 hfinite.2,
      not_and_or, not_le, not_le]
  by_cases hfinite : l.isFinite
  · simp only [limitsFault?, hfinite, hord hfinite, hhome hfinite, Requirement.ofAxis,
      List.findSome?_cons, List.findSome?_nil, Requirement.fault?, Requirement.Met, hl,
      Requirement.fault]
    split_ifs <;> simp_all
  · simp [limitsFault?, hfinite, Requirement.ofAxis, Requirement.fault?, Requirement.Met, hl,
      Requirement.fault]

theorem findSome?_flatMap {α β γ : Type} (f : α → List β) (g : β → Option γ) (xs : List α) :
    (xs.flatMap f).findSome? g = xs.findSome? fun x => (f x).findSome? g := by
  induction xs with
  | nil => rfl
  | cons x xs ih =>
    rw [List.flatMap_cons, List.findSome?_append, List.findSome?_cons, ih]
    cases (f x).findSome? g <;> rfl

/-- The fault of a configuration is that of the first requirement it does not meet. -/
theorem fault?_eq : c.fault? = Requirement.all.findSome? (Requirement.fault? c) := by
  have haxes : (Cartesian.all.flatMap Requirement.ofAxis).findSome? (Requirement.fault? c) =
      Cartesian.all.findSome? fun a => limitsFault? a (c.limits.get a) := by
    rw [findSome?_flatMap]
    simp only [limitsFault?_eq]
  -- the two checks that are left, as checks of a requirement each
  have hspeeds : ¬ (c.xyJogSpeed ≤ 0 ∨ c.zJogSpeed ≤ 0) ↔
      Requirement.jogSpeeds.Met PassingSpeed c :=
    not_or.trans (and_congr (not_le_zero_iff _) (not_le_zero_iff _))
  have hextruders : ¬ maxExtruders < c.extruderCount ↔
      Requirement.extruderCount.Met PassingSpeed c := Nat.not_lt
  have hjog : c.jogFault? = Requirement.jogSpeeds.fault? c := Requirement.ite_eq_fault? hspeeds
  have hcount : c.extruderFault? = Requirement.extruderCount.fault? c :=
    Requirement.ite_eq_fault? hextruders
  rw [fault?, Requirement.all, List.findSome?_append, haxes, hjog, hcount]
  simp only [Option.orElse_eq_orElse, Option.orElse_eq_or, List.findSome?_cons, List.findSome?_nil]
  cases Requirement.jogSpeeds.fault? c <;> cases Requirement.extruderCount.fault? c <;> rfl

theorem validate_eq_error_iff {e : ConfigError} :
    c.validate = .error e ↔ ∃ fault, c.fault? = some fault ∧ e = .invalid fault.message := by
  unfold validate
  cases c.fault? <;> simp [eq_comm]

theorem passingSpeed_iff_of_isFinite {x : Float} (h : x.isFinite) :
    PassingSpeed x ↔ UsableSpeed x := by
  simp [PassingSpeed, isInf_eq_false h, ne_nan_of_isFinite h]

/-- A configuration is accepted just where it meets every requirement, and otherwise it is rejected
for the first one that it does not meet, if of the jog speeds no more is asked than that they pass
for speeds. Where they are finite, that is to be usable. -/
theorem validate_decides (c : Config) :
    (c.validate = .ok () ↔ ∀ r ∈ Requirement.all, r.Met PassingSpeed c) ∧
      (∀ e, c.validate = .error e ↔ ∃ earlier r later,
        Requirement.all = earlier ++ r :: later ∧ (∀ r' ∈ earlier, r'.Met PassingSpeed c) ∧
          ¬ r.Met PassingSpeed c ∧ e = .invalid (r.fault c).message) ∧
      (c.xyJogSpeed.isFinite → c.zJogSpeed.isFinite →
        ∀ r : Requirement, r.Met PassingSpeed c ↔ r.Met UsableSpeed c) := by
  refine ⟨?_, fun e => ?_, fun hxy hz r => ?_⟩
  · rw [validate_eq_ok_iff_fault?, fault?_eq, List.findSome?_eq_none_iff]
    simp only [Requirement.fault?_eq_none_iff]
  · rw [validate_eq_error_iff]
    simp only [fault?_eq, List.findSome?_eq_some_iff, Requirement.fault?_eq_none_iff,
      Requirement.fault?_eq_some_iff]
    constructor
    · rintro ⟨fault, ⟨earlier, r, later, heq, ⟨hnot, rfl⟩, hmet⟩, rfl⟩
      exact ⟨earlier, r, later, heq, hmet, hnot, rfl⟩
    · rintro ⟨earlier, r, later, heq, hmet, hnot, rfl⟩
      exact ⟨_, ⟨earlier, r, later, heq, ⟨hnot, rfl⟩, hmet⟩, rfl⟩
  · cases r with
    | jogSpeeds =>
      exact and_congr (passingSpeed_iff_of_isFinite hxy) (passingSpeed_iff_of_isFinite hz)
    | _ => exact Iff.rfl

/-- Home of the second axis beyond its bounds, the bounds of the third inverted, and no speed. -/
def misplacedHome : Config :=
  { limits := ⟨.standard, ⟨0, 100, 150⟩, ⟨5, 3, 4⟩⟩, zJogSpeed := 0 }

theorem validate_misplacedHome :
    misplacedHome.validate = .error (.invalid "Y home 150 outside [0, 100]") ∧
      ¬ Requirement.jogSpeeds.Met UsableSpeed misplacedHome := by
  obtain ⟨-, herror, hspeeds⟩ := validate_decides misplacedHome
  have hreason : (Requirement.fault misplacedHome (.homeWithin .y)).message =
      "Y home 150 outside [0, 100]" := by decide +kernel
  have hrejected := (herror _).mpr ⟨[.finiteLimits .x, .orderedBounds .x, .homeWithin .x,
    .finiteLimits .y, .orderedBounds .y], .homeWithin .y, [.finiteLimits .z, .orderedBounds .z,
    .homeWithin .z, .jogSpeeds, .extruderCount], rfl, by decide +kernel, by decide +kernel, rfl⟩
  rw [hreason] at hrejected
  exact ⟨hrejected, mt (hspeeds rfl rfl .jogSpeeds).mpr (by decide +kernel)⟩

/-- A configuration is accepted though its jog speed is no number. -/
theorem validate_nanSpeed :
    ({ xyJogSpeed := .nan } : Config).validate = .ok () ∧
      Requirement.jogSpeeds ∈ Requirement.all ∧
        ¬ Requirement.jogSpeeds.Met UsableSpeed { xyJogSpeed := .nan } := by
  decide +kernel

end Config

end PrinterShadow
