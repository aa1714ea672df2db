import PrinterShadow.Tracker.Basic

/-!
A copy of what others may see of a tracker, with the thermal state of the configured extruders.
-/

namespace PrinterShadow

structure Snapshot where
  activeExtruder : Nat
  position : Xyz Float
  feedRate : Float
  fan : Fan
  powerOn : Bool
  debugLevel : Int32
  homed : Xyz Bool
  layer : UInt32
  sdCardMounted : Bool
  bedTarget : Float
  bedReading : Float
  speed : Int32
  flow : Int32
  extruderCount : Nat
  firmwareName : String
  firmwareUrl : String
  extruders : List Heater
  deriving DecidableEq, Repr

namespace Snapshot

def isFullyHomed (s : Snapshot) : Bool :=
  Cartesian.all.all s.homed.get

end Snapshot

def Tracker.snapshot (c : Config) (t : Tracker) : Snapshot where
  activeExtruder := t.active
  position := t.motion.position
  feedRate := t.motion.feedRate
  fan := t.fan
  powerOn := t.powerOn
  debugLevel := t.debugLevel
  homed := t.motion.homed
  layer := t.progress.layer
  sdCardMounted := t.sdCardMounted
  bedTarget := t.bed.target
  bedReading := t.bed.reading
  speed := t.speed
  flow := t.flow
  extruderCount := c.extruderCount
  firmwareName := t.firmware.name
  firmwareUrl := t.firmware.url
  extruders := (t.slots.take c.extruderCount).map Extruder.heater

end PrinterShadow
