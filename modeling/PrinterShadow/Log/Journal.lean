import PrinterShadow.Log.Event
import PrinterShadow.Tracker.Pause
import PrinterShadow.Tracker.Receiving
import PrinterShadow.Tracker.Sending

/-!
The events of each operation, in their order, told from the tracker before it.
-/

namespace PrinterShadow

namespace Log

/-- The event of resolving a selector that names no slot. -/
def resolving (selector : Int) (slots : Nat) : List Event :=
  if 0 ≤ selector ∧ slots ≤ selector.toNat then [.selectorOutOfRange selector slots] else []

/-- The events of a linear move: each axis that a bound stops, then a feed rate that takes no
time. -/
def moving (c : Config) (w : Words) (m : Motion) : List Event :=
  let stopped := Cartesian.all.filterMap fun a =>
    let limits := c.limits.get a
    let target := m.target w a
    if limits.Excludes target then some (Event.bounded a target limits) else none
  let feedRate := m.feedAfter w
  stopped ++ if 0 < feedRate then [] else [.feedNotPositive feedRate]

/-- The events of following an instruction. -/
def obeying (c : Config) (t : Tracker) : Instruction → List Event
  | .linearMove w => moving c w t.motion
  | .home w toUpper => [.homed w.namesNone toUpper]
  | .upload true => [.uploadStarted]
  | .upload false => [.uploadFinished]
  | .heat tool _ => resolving ((tool.map Int32.toInt).getD (-1)) t.slots.length
  | .selectTool tool =>
    let slot := t.resolve tool.toInt
    resolving tool.toInt t.slots.length ++
      if slot = t.active then [] else [.toolChanged tool.toInt slot]
  | _ => []

/-- The events of following a command. -/
def sending (c : Config) (cmd : Command) (t : Tracker) : List Event :=
  match Tracker.response t.uploading cmd with
  | .confirmHome => [.homeConfirmed]
  | .ignore directive => [.directiveIgnored directive]
  | .gate => []
  | .obey instruction => obeying c t instruction

/-- The event of looking for a number under a key. -/
def reading (key : String) (ts : List Status.Token) : List Event :=
  match Status.value? key ts, Status.number? key ts with
  | some value, none => [.notNumeric key value]
  | _, _ => []

/-- The events of an introduction. -/
def introducing (ts : List Status.Token) (t : Tracker) : List Event :=
  match Status.Introduction.ofTokens? ts with
  | none => []
  | some r => reading "EXTRUDER_COUNT" ts ++ [.firmwareIdentified (t.firmware.update r)]

/-- The events of the extruders that are reported by number. -/
def readingExtruders (ts : List Status.Token) (slots : Nat) : List Event :=
  (Status.extruderNumbers ts).flatMap fun (n : Nat) =>
    resolving n slots ++ reading (Status.temperatureKey n) ts ++ reading (Status.outputKey n) ts

/-- The events of following a line of the firmware. -/
def receiving (line : String) (t : Tracker) : List Event :=
  let ts := Status.tokens line
  let currentOutput := if (Status.number? "T" ts).isSome then reading "@" ts else []
  introducing ts t ++
    Cartesian.all.flatMap (fun a => reading (Status.axisKey a) ts) ++
    reading "E" ts ++
    readingExtruders ts t.slots.length ++
    reading "T" ts ++ currentOutput ++
    ["B", "SpeedMultiply", "FlowMultiply", "TargetExtr0", "TargetExtr1", "TargetBed", "Fanspeed",
      "REPETIER_PROTOCOL"].flatMap fun key => reading key ts

/-- The event of asking for the lines that resume a print. -/
def resumption (t : Tracker) : List Event :=
  if t.pause.isNone then [.nothingPaused] else []

end Log

end PrinterShadow
