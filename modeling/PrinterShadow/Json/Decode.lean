import PrinterShadow.Command.Basic
import PrinterShadow.Config.Basic
import PrinterShadow.Json.Record
import PrinterShadow.Tracker.Receiving
import PrinterShadow.Tracker.Snapshot

/-!
The records of this library as JSON documents describe them. Nothing is checked but the form.
-/

namespace PrinterShadow

open Json

def Axis.ofJson? : Json → Option Axis :=
  choice? [("X", .cartesian .x), ("Y", .cartesian .y), ("Z", .cartesian .z), ("E", .extruder)]

def Firmware.Family.ofJson? : Json → Option Firmware.Family :=
  choice? [("Repetier", .repetier), ("Marlin", .marlin), ("Unknown", .unknown)]

def LineClass.ofJson? : Json → Option LineClass :=
  choice? [("Unclassified", .unclassified), ("Telemetry", .telemetry)]

def Command.ofJson? (j : Json) : Option Command := do
  let names := ["host_command", "line_number", "g", "m", "t", "x", "y", "z", "e", "f", "s"]
  let r ← j.fields? names false
  some
    { directive := ← r.optional "host_command" toText?
      lineNumber := ← r.optional "line_number" toUInt32?
      g := ← r.optional "g" toUInt16?
      m := ← r.optional "m" toUInt16?
      tool := ← r.optional "t" toInt32?
      words :=
        { xyz := ⟨← r.optional "x" toFloat?, ← r.optional "y" toFloat?, ← r.optional "z" toFloat?⟩
          e := ← r.optional "e" toFloat?
          feed := ← r.optional "f" toFloat?
          s := ← r.optional "s" toFloat? } }

def Limits.ofJson? (j : Json) : Option Limits := do
  let r ← j.fields? ["min", "max", "home"] false
  some ⟨← r.need "min" toFloat?, ← r.need "max" toFloat?, ← r.need "home" toFloat?⟩

/-- A configuration, in which any field may be left out. -/
def Config.ofJson? (j : Json) : Option Config := do
  let names := ["name", "x", "y", "z", "xy_jog_speed", "z_jog_speed", "extruder_count"]
  let r ← j.fields? names true
  let d : Config := {}
  some
    { name := ← r.getD "name" toText? d.name
      limits :=
        ⟨← r.getD "x" Limits.ofJson? d.limits.x, ← r.getD "y" Limits.ofJson? d.limits.y,
          ← r.getD "z" Limits.ofJson? d.limits.z⟩
      xyJogSpeed := ← r.getD "xy_jog_speed" toFloat? d.xyJogSpeed
      zJogSpeed := ← r.getD "z_jog_speed" toFloat? d.zJogSpeed
      extruderCount := ← r.getD "extruder_count" (toNat? 64) d.extruderCount }

/-- A heater, whose fields are named in one of two styles. -/
def Heater.ofJson? (target reading output : String) (j : Json) : Option Heater := do
  let r ← j.fields? [target, reading, output] false
  some ⟨← r.need target toFloat?, ← r.need reading toFloat?, ← r.need output toInt32?⟩

def Heater.ofSnapshotJson? : Json → Option Heater :=
  Heater.ofJson? "tempSet" "tempRead" "output"

def Heater.ofBedJson? : Json → Option Heater :=
  Heater.ofJson? "temp_set" "temp_read" "output"

def Extruder.ofJson? (j : Json) : Option Extruder := do
  let names := ["id", "temp_set", "temp_read", "output", "e_pos", "e_max", "e_offset", "last_e",
    "e_printer"]
  let r ← j.fields? names false
  some
    { id := ← r.need "id" (toNat? 64)
      heater :=
        ⟨← r.need "temp_set" toFloat?, ← r.need "temp_read" toFloat?, ← r.need "output" toInt32?⟩
      filament :=
        { position := ← r.need "e_pos" toFloat?
          furthest := ← r.need "e_max" toFloat?
          offset := ← r.need "e_offset" toFloat?
          charged := ← r.need "last_e" toFloat?
          counter := ← r.need "e_printer" toFloat? } }

def Firmware.Identity.ofJson? (j : Json) : Option Firmware.Identity := do
  let names := ["name", "url", "protocol_version", "machine_type", "extruder_count", "family"]
  let r ← j.fields? names false
  some
    { name := ← r.need "name" toText?
      url := ← r.need "url" toText?
      protocolVersion := ← r.need "protocol_version" toText?
      machineType := ← r.need "machine_type" toText?
      extruderCount := ← r.need "extruder_count" toInt32?
      family := ← r.need "family" Firmware.Family.ofJson? }

def Move.ofJson? (j : Json) : Option Move := do
  let r ← j.fields? ["from_x", "from_y", "from_z", "from_e", "extrusion_changed"] false
  some
    { start := ⟨← r.need "from_x" toFloat?, ← r.need "from_y" toFloat?, ← r.need "from_z" toFloat?⟩
      startFilament := ← r.need "from_e" toFloat?
      extrudes := ← r.need "extrusion_changed" toBool? }

def Pause.ofJson? (j : Json) : Option Pause := do
  let r ← j.fields? ["x", "y", "z", "e", "feed_rate", "relative"] false
  some
    { position := ⟨← r.need "x" toFloat?, ← r.need "y" toFloat?, ← r.need "z" toFloat?⟩
      filament := ← r.need "e" toFloat?
      feedRate := ← r.need "feed_rate" toFloat?
      relative := ← r.need "relative" toBool? }

def Snapshot.ofJson? (j : Json) : Option Snapshot := do
  let names := ["activeExtruder", "x", "y", "z", "feedRate", "fanOn", "fanVoltage", "powerOn",
    "debugLevel", "hasXHome", "hasYHome", "hasZHome", "layer", "sdcardMounted", "bedTempSet",
    "bedTempRead", "speedMultiply", "flowMultiply", "numExtruder", "firmware", "firmwareUrl",
    "extruder"]
  let r ← j.fields? names false
  some
    { activeExtruder := ← r.need "activeExtruder" (toNat? 64)
      position := ⟨← r.need "x" toFloat?, ← r.need "y" toFloat?, ← r.need "z" toFloat?⟩
      feedRate := ← r.need "feedRate" toFloat?
      fan := ⟨← r.need "fanOn" toBool?, ← r.need "fanVoltage" toInt32?⟩
      powerOn := ← r.need "powerOn" toBool?
      debugLevel := ← r.need "debugLevel" toInt32?
      homed :=
        ⟨← r.need "hasXHome" toBool?, ← r.need "hasYHome" toBool?, ← r.need "hasZHome" toBool?⟩
      layer := ← r.need "layer" toUInt32?
      sdCardMounted := ← r.need "sdcardMounted" toBool?
      bedTarget := ← r.need "bedTempSet" toFloat?
      bedReading := ← r.need "bedTempRead" toFloat?
      speed := ← r.need "speedMultiply" toInt32?
      flow := ← r.need "flowMultiply" toInt32?
      extruderCount := ← r.need "numExtruder" (toNat? 64)
      firmwareName := ← r.need "firmware" toText?
      firmwareUrl := ← r.need "firmwareUrl" toText?
      extruders := ← r.need "extruder" (toList? Heater.ofSnapshotJson?) }

end PrinterShadow
