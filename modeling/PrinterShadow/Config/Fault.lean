import PrinterShadow.Config.Basic
import PrinterShadow.Decimal.Shortest

/-!
What can be wrong with a configuration. `Config.fault?` gives the first fault in a fixed order: X, Y
and Z, each by finiteness, order of the bounds and place of home, then the jog speeds, then the
number of extruders.
-/

namespace PrinterShadow

namespace Config

def maxExtruders : Nat := 16

inductive Fault where
  | notFinite (axis : Cartesian)
  | inverted (axis : Cartesian) (limits : Limits)
  | homeOutside (axis : Cartesian) (limits : Limits)
  | jogSpeed
  | tooManyExtruders (count : Nat)
  deriving DecidableEq, Repr

def Fault.message : Fault → String
  | .notFinite a => s!"{a.letter} limits must be finite"
  | .inverted a l =>
    s!"{a.letter} min {shortestText l.lower} exceeds max {shortestText l.upper}"
  | .homeOutside a l =>
    s!"{a.letter} home {shortestText l.home} outside " ++
      s!"[{shortestText l.lower}, {shortestText l.upper}]"
  | .jogSpeed => "jog speeds must be positive"
  | .tooManyExtruders count => s!"extruder count {count} exceeds {maxExtruders}"

def limitsFault? (a : Cartesian) (l : Limits) : Option Fault :=
  if !l.isFinite then some (.notFinite a)
  else if l.upper < l.lower then some (.inverted a l)
  else if l.Excludes l.home then some (.homeOutside a l)
  else none

/-- A jog speed is at fault where it is zero or less. -/
def jogFault? (c : Config) : Option Fault :=
  if c.xyJogSpeed ≤ 0 ∨ c.zJogSpeed ≤ 0 then some .jogSpeed else none

def extruderFault? (c : Config) : Option Fault :=
  if maxExtruders < c.extruderCount then some (.tooManyExtruders c.extruderCount) else none

def fault? (c : Config) : Option Fault :=
  (Cartesian.all.findSome? fun a => limitsFault? a (c.limits.get a))
    <|> c.jogFault? <|> c.extruderFault?

end Config

end PrinterShadow
