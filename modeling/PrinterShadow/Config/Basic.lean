import PrinterShadow.Axis
import PrinterShadow.Config.Limits

/-!
The configuration of a printer: its name, the travel of its axes, its jog speeds and the number of
its extruders.
-/

namespace PrinterShadow

structure Config where
  name : String := "printer"
  limits : Xyz Limits := .replicate .standard
  /-- The speed of jog moves in X and Y, in units per second. -/
  xyJogSpeed : Float := 100
  /-- The speed of jog moves in Z, in units per second. -/
  zJogSpeed : Float := 2
  extruderCount : Nat := 1
  deriving DecidableEq, Repr

namespace Config

/-- The limits of an axis. The extruder has none. -/
def axisLimits (c : Config) : Axis → Limits
  | .cartesian a => c.limits.get a
  | .extruder => .unbounded

/-- The configuration with other limits for an axis. Limits for the extruder change nothing. -/
def withLimits (c : Config) (l : Limits) : Axis → Config
  | .cartesian a => { c with limits := c.limits.set a l }
  | .extruder => c

/-- Equality of configurations, numbers compared as numbers: the two zeros are equal, and a value
that is no number differs from itself. -/
def sameAs (c d : Config) : Bool :=
  c.name == d.name && c.extruderCount == d.extruderCount &&
    c.xyJogSpeed == d.xyJogSpeed && c.zJogSpeed == d.zJogSpeed &&
    Cartesian.all.all fun a =>
      let l := c.limits.get a
      let k := d.limits.get a
      l.lower == k.lower && l.upper == k.upper && l.home == k.home

end Config

end PrinterShadow
