import PrinterShadow.Axis
import PrinterShadow.Status.Token

/-!
What a status line reports: the values of the keys that mean something. Nothing else of a line
matters.
-/

namespace PrinterShadow

namespace Status

/-- What is reported of one heater. -/
structure Reading where
  temperature : Option Float
  output : Option Int32
  deriving DecidableEq, Repr

/-- What a firmware reports about itself. -/
structure Introduction where
  name : String
  url : Option String
  protocolVersion : Option String
  machineType : Option String
  extruderCount : Option Int32
  deriving DecidableEq, Repr

structure Report where
  introduction : Option Introduction
  /-- In the firmware's coordinates. -/
  position : Xyz (Option Float)
  filament : Option Float
  /-- The extruders by number, up to the first that is missing. -/
  extruders : List Reading
  /-- The active extruder. -/
  current : Reading
  bedTemperature : Option Float
  speed : Option Int32
  flow : Option Int32
  /-- The target of the first extruder, and the second target, which also goes to it. -/
  extruderTargets : List (Option Float)
  bedTarget : Option Float
  fanVoltage : Option Int32
  binaryVersion : Option Int32
  deriving DecidableEq, Repr

/-- The key of the temperature of an extruder by number. -/
def temperatureKey (n : Nat) : String := s!"T{n}"

/-- The key of the heater output of an extruder by number. -/
def outputKey (n : Nat) : String := s!"@{n}"

def axisKey (a : Cartesian) : String := String.ofList [a.letter]

/-- The numbers of the extruders that a line reports by number, from 0 up to the first that is
missing. There are at most as many as tokens. -/
def extruderNumbers (ts : List Token) : List Nat :=
  (List.range ts.length).takeWhile fun n => hasKey (temperatureKey n) ts

def Introduction.ofTokens? (ts : List Token) : Option Introduction :=
  (value? "FIRMWARE_NAME" ts).map fun name =>
    { name
      url := value? "FIRMWARE_URL" ts
      protocolVersion := value? "PROTOCOL_VERSION" ts
      machineType := value? "MACHINE_TYPE" ts
      extruderCount := integer? "EXTRUDER_COUNT" ts }

namespace Report

def ofTokens (ts : List Token) : Report where
  introduction := Introduction.ofTokens? ts
  position := .ofFn fun a => number? (axisKey a) ts
  filament := number? "E" ts
  extruders := (extruderNumbers ts).map fun n =>
    ⟨number? (temperatureKey n) ts, integer? (outputKey n) ts⟩
  current := ⟨number? "T" ts, integer? "@" ts⟩
  bedTemperature := number? "B" ts
  speed := integer? "SpeedMultiply" ts
  flow := integer? "FlowMultiply" ts
  extruderTargets := [number? "TargetExtr0" ts, number? "TargetExtr1" ts]
  bedTarget := number? "TargetBed" ts
  fanVoltage := integer? "Fanspeed" ts
  binaryVersion := integer? "REPETIER_PROTOCOL" ts

/-- Whether a report carries telemetry: a temperature of the active extruder, a multiplier, a target
or the fan's voltage. -/
def isTelemetry (r : Report) : Bool :=
  r.current.temperature.isSome || r.speed.isSome || r.flow.isSome ||
    r.extruderTargets.any Option.isSome || r.bedTarget.isSome || r.fanVoltage.isSome

end Report

end Status

end PrinterShadow
