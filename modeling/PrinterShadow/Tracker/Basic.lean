import PrinterShadow.Config.Basic
import PrinterShadow.Extruder
import PrinterShadow.Firmware.Family

/-!
The tracker: what is known of a printer from the commands sent to it and the lines it answers.
Positions are logical. An absolute word `v` leads to `offset + v`, so the firmware's coordinate is
the position less the offset; setting a position changes the offset alone.
-/

namespace PrinterShadow

/-- The effect of a linear move. -/
structure Move where
  start : Xyz Float
  /-- The position of the active extruder before the move. -/
  startFilament : Float
  /-- Whether the move changes the extruder's position. -/
  extrudes : Bool
  deriving DecidableEq, Repr

/-- What is captured when a print is paused, in the firmware's coordinates. -/
structure Pause where
  position : Xyz Float
  filament : Float
  feedRate : Float
  relative : Bool
  deriving DecidableEq, Repr

/-- Where the head is and how it moves. -/
@[ext]
structure Motion where
  position : Xyz Float := .replicate 0
  offset : Xyz Float := .replicate 0
  /-- The position up to which printing time is charged. -/
  charged : Xyz Float := .replicate 0
  homed : Xyz Bool := .replicate false
  /-- In units per minute. -/
  feedRate : Float := 1000
  relative : Bool := false
  extruderRelative : Bool := false
  deriving DecidableEq, Repr

/-- How far the print has come. -/
structure Progress where
  layer : UInt32 := 0
  /-- The height at which a layer was last counted. -/
  printedZ : Float := 0
  /-- In seconds. -/
  time : Float := 0
  deriving DecidableEq, Repr

structure Fan where
  on : Bool := false
  voltage : Int32 := 0
  deriving DecidableEq, Repr

structure Tracker where
  /-- One record per slot; slot `i` holds the extruder with id `i`. -/
  slots : List Extruder
  active : Nat := 0
  motion : Motion := {}
  progress : Progress := {}
  bed : Heater := {}
  fan : Fan := {}
  powerOn : Bool := true
  debugLevel : Int32 := 6
  /-- The extruder chosen for watching temperatures; -1 stands for none. -/
  temperatureMonitor : Int32 := -1
  sdCardMounted : Bool := true
  /-- In percent. -/
  speed : Int32 := 100
  /-- In percent. -/
  flow : Int32 := 100
  firmware : Firmware.Identity := {}
  binaryVersion : Int32 := 0
  /-- Whether an extruder temperature has been reported. -/
  temperatureSeen : Bool := false
  uploading : Bool := false
  lastLine : UInt32 := 0
  pause : Option Pause := none
  lastMove : Option Move := none
  deriving DecidableEq, Repr

namespace Tracker

/-- The number of slots: one more than there are extruders, so that there is one even without, and
no fewer than asked for. -/
def slotCount (c : Config) (minimum : Nat) : Nat :=
  max (c.extruderCount + 1) minimum

/-- A tracker with all extruders cold and nothing known of the printer. -/
def fresh (slots : Nat) : Tracker :=
  { slots := (List.range slots).map fun id => { id } }

/-- The tracker of a printer that nothing was sent to. -/
def start (c : Config) (minimum : Nat) : Tracker :=
  fresh (slotCount c minimum)

/-- Starts over, as after connecting anew. What is kept are the heaters of the extruders, the
identity of the firmware but for its family, and whether a temperature was seen. -/
def reset (t : Tracker) : Tracker :=
  { slots := t.slots.map fun ex => { ex with filament := {} }
    firmware := { t.firmware with family := .unknown }
    temperatureSeen := t.temperatureSeen }

def extruderAt (t : Tracker) (slot : Nat) : Extruder :=
  t.slots.getD slot { id := slot }

def activeExtruder (t : Tracker) : Extruder :=
  t.extruderAt t.active

/-- The slot that a selector names. -/
def resolve (t : Tracker) (selector : Int) : Nat :=
  resolveSlot selector t.active t.slots.length

def extruder (t : Tracker) (selector : Int) : Extruder :=
  t.extruderAt (t.resolve selector)

def updateFilament (t : Tracker) (f : Filament → Filament) : Tracker :=
  { t with slots := t.slots.modify t.active fun ex => { ex with filament := f ex.filament } }

def updateHeater (t : Tracker) (slot : Nat) (f : Heater → Heater) : Tracker :=
  { t with slots := t.slots.modify slot fun ex => { ex with heater := f ex.heater } }

@[simp]
theorem length_slots_updateFilament (t : Tracker) (f : Filament → Filament) :
    (t.updateFilament f).slots.length = t.slots.length := by
  simp [updateFilament]

@[simp]
theorem length_slots_updateHeater (t : Tracker) (slot : Nat) (f : Heater → Heater) :
    (t.updateHeater slot f).slots.length = t.slots.length := by
  simp [updateHeater]

def largestLine : UInt32 := 0xffffffff

/-- The next line number, which stops at the largest. -/
def increaseLine (t : Tracker) : Tracker :=
  { t with lastLine := if t.lastLine = largestLine then t.lastLine else t.lastLine + 1 }

/-- The line number before, which stops at zero. -/
def decreaseLine (t : Tracker) : Tracker :=
  { t with lastLine := if t.lastLine = 0 then 0 else t.lastLine - 1 }

end Tracker

end PrinterShadow
