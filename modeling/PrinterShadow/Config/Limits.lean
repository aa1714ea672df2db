/-!
The travel of one axis: the coordinates it can reach and the one that homing brings it to.
-/

namespace PrinterShadow

structure Limits where
  lower : Float
  upper : Float
  home : Float
  deriving DecidableEq, Repr

namespace Limits

/-- Whether a coordinate lies beyond the bounds. A value that is no number lies beyond neither. -/
def Excludes (l : Limits) (value : Float) : Prop :=
  value < l.lower ∨ l.upper < value

instance (l : Limits) (value : Float) : Decidable (l.Excludes value) :=
  inferInstanceAs (Decidable (_ ∨ _))

/-- The coordinate itself within the bounds, else the bound that it passed. -/
def clamp (l : Limits) (value : Float) : Float :=
  if value < l.lower then l.lower
  else if l.upper < value then l.upper
  else value

theorem clamp_of_not_excludes {l : Limits} {value : Float} (h : ¬ l.Excludes value) :
    l.clamp value = value := by
  simp only [Excludes, not_or] at h
  simp [clamp, h]

/-- Travel from 0 to 200 with home at 0. -/
def standard : Limits := ⟨0, 200, 0⟩

/-- Every finite coordinate is within these bounds. -/
def unbounded : Limits :=
  ⟨Float.ofBits 0xffefffffffffffff, Float.ofBits 0x7fefffffffffffff, 0⟩

def isFinite (l : Limits) : Bool :=
  l.lower.isFinite && l.upper.isFinite && l.home.isFinite

end Limits

end PrinterShadow
