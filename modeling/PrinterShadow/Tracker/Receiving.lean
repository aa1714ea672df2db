import PrinterShadow.Status.Report
import PrinterShadow.Tracker.Basic

/-!
Following what the printer answers. Reported coordinates are the firmware's, so the offset is added
to them; heater outputs are brought to the common scale of the family last reported, which may be in
the same line.
-/

namespace PrinterShadow

/-- What a line is to its reader. An unclassified line may still have told something. -/
inductive LineClass where
  | unclassified | telemetry
  deriving DecidableEq, Repr

def LineClass.name : LineClass → String
  | .unclassified => "Unclassified"
  | .telemetry => "Telemetry"

/-- The identity of a firmware that introduces itself. What it leaves out stays as it was, and the
family follows the name. -/
def Firmware.Identity.update (i : Identity) (r : Status.Introduction) : Identity where
  name := r.name
  url := r.url.getD i.url
  protocolVersion := r.protocolVersion.getD i.protocolVersion
  machineType := r.machineType.getD i.machineType
  extruderCount := r.extruderCount.getD i.extruderCount
  family := .classify r.name

/-- A heater after a reading. Each of its two values is taken where it is there. -/
def Heater.update (family : Firmware.Family) (r : Status.Reading) (h : Heater) : Heater :=
  { h with
    reading := r.temperature.getD h.reading
    output := (r.output.map family.normalizeOutput).getD h.output }

namespace Tracker

open Status (Reading Report)

def applyIntroduction (r : Report) (t : Tracker) : Tracker :=
  { t with firmware := (r.introduction.map t.firmware.update).getD t.firmware }

def applyPosition (r : Report) (t : Tracker) : Tracker :=
  { t with
    motion.position := .ofFn fun a =>
      match r.position.get a with
      | none => t.motion.position.get a
      | some reported => reported + t.motion.offset.get a }

def applyFilament (r : Report) (t : Tracker) : Tracker :=
  match r.filament with
  | none => t
  | some e => t.updateFilament fun f => { f with position := e }

/-- The extruders that are reported by number, each into the slot that its number selects. -/
def applyExtruders (r : Report) (t : Tracker) : Tracker :=
  r.extruders.zipIdx.foldl
    (fun t (reading, n) => t.updateHeater (t.resolve n) (Heater.update t.firmware.family reading)) t

/-- The active extruder, whose output counts only beside a temperature. -/
def applyCurrent (r : Report) (t : Tracker) : Tracker :=
  if r.current.temperature.isSome then
    { t.updateHeater t.active (Heater.update t.firmware.family r.current) with
      temperatureSeen := true }
  else t

/-- The targets reported for extruders, all of which go to the first. -/
def applyTargets (r : Report) (t : Tracker) : Tracker :=
  r.extruderTargets.foldl
    (fun t target => t.updateHeater 0 fun h => { h with target := target.getD h.target }) t

/-- The values that need nothing else to be understood. -/
def applyDevice (r : Report) (t : Tracker) : Tracker :=
  { t with
    bed.reading := r.bedTemperature.getD t.bed.reading
    bed.target := r.bedTarget.getD t.bed.target
    speed := r.speed.getD t.speed
    flow := r.flow.getD t.flow
    fan.voltage := r.fanVoltage.getD t.fan.voltage
    binaryVersion := r.binaryVersion.getD t.binaryVersion }

def apply (r : Report) (t : Tracker) : Tracker :=
  t |>.applyIntroduction r |>.applyPosition r |>.applyFilament r |>.applyExtruders r
    |>.applyCurrent r |>.applyTargets r |>.applyDevice r

/-- Follows one line of the firmware, and tells what it is. -/
def receive (line : String) (t : Tracker) : Tracker × LineClass :=
  let r := Report.ofTokens (Status.tokens line)
  (t.apply r, if r.isTelemetry then .telemetry else .unclassified)

end Tracker

end PrinterShadow
