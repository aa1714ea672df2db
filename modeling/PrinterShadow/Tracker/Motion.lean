import PrinterShadow.Command.Basic
import PrinterShadow.Tracker.Basic

/-!
Moving the head: linear moves, homing and setting the position. A linear move is bounded by the
limits of each axis, counts a layer where the active extruder gets further than ever at another
height, and is charged for the way since the last charge.
-/

namespace PrinterShadow

namespace Motion

/-- The firmware's coordinate of an axis. -/
def coordinate (m : Motion) (a : Cartesian) : Float :=
  m.position.get a - m.offset.get a

/-- Where a move leads on one axis, the bounds apart. -/
def target (m : Motion) (w : Words) (a : Cartesian) : Float :=
  match w.xyz.get a with
  | none => m.position.get a
  | some v => if m.relative then m.position.get a + v else m.offset.get a + v

def feedAfter (m : Motion) (w : Words) : Float :=
  w.feed.getD m.feedRate

/-- The bounded move. An axis that a bound stopped is homed no longer. -/
def move (c : Config) (w : Words) (m : Motion) : Motion :=
  { m with
    feedRate := m.feedAfter w
    position := .ofFn fun a => (c.limits.get a).clamp (m.target w a)
    homed := .ofFn fun a =>
      m.homed.get a && !decide ((c.limits.get a).Excludes (m.target w a)) }

/-- Whether the extruder's word is taken relatively. -/
def movesFilamentRelatively (m : Motion) : Bool :=
  m.relative || m.extruderRelative

def home (c : Config) (w : Words) (toUpper : Bool) (m : Motion) : Motion :=
  let goal (a : Cartesian) : Float :=
    if toUpper then (c.limits.get a).upper else (c.limits.get a).home
  { m with
    position := .ofFn fun a => if w.covers a then goal a else m.position.get a
    offset := .ofFn fun a => if w.covers a then 0 else m.offset.get a
    homed := .ofFn fun a => w.covers a || m.homed.get a }

/-- Gives the named axes new coordinates where they are. -/
def setPosition (w : Words) (m : Motion) : Motion :=
  { m with
    offset := .ofFn fun a =>
      match w.xyz.get a with
      | none => m.offset.get a
      | some v => m.position.get a - v }

/-- The way of each axis since the last charge. -/
def way (m : Motion) (a : Cartesian) : Float :=
  (m.position.get a - m.charged.get a).abs

/-- A way of the head up to this counts as no way at all. -/
def leastWay : Float := 0.001

/-- The length of the way since the last charge: the head's, or the filament's where the head stood
still. -/
def length (m : Motion) (f : Filament) : Float :=
  let dx := m.way .x
  let dy := m.way .y
  let dz := m.way .z
  if leastWay < dx + dy + dz then (dx * dx + dy * dy + dz * dz).sqrt
  else (f.position - f.charged).abs

end Motion

namespace Filament

def target (relative : Bool) (e : Float) (f : Filament) : Float :=
  if relative then f.position + e else f.offset + e

def extrudes (relative : Bool) (e : Option Float) (f : Filament) : Bool :=
  match e with
  | none => false
  | some e => if relative then e != 0 else f.target relative e != f.position

def advance (relative : Bool) (e : Option Float) (f : Filament) : Filament :=
  match e with
  | none => f
  | some e =>
    { f with
      position := f.target relative e
      counter := if relative then f.counter + e else e }

def isFurther (f : Filament) : Bool :=
  f.furthest < f.position

/-- Notes the furthest position, and that all of the way is charged. -/
def settle (f : Filament) : Filament :=
  { f with
    furthest := if f.isFurther then f.position else f.furthest
    charged := f.position }

/-- The origin of both counts, with no furthest position. -/
def home (f : Filament) : Filament :=
  { f with offset := 0, position := 0, furthest := 0 }

/-- Gives the position a new coordinate where it is. -/
def setPosition (e : Option Float) (f : Filament) : Filament :=
  match e with
  | none => f
  | some e => { f with offset := f.position - e, charged := f.position, counter := e }

end Filament

namespace Progress

/-- Counts a layer where the extruder got further at another height than before. -/
def countLayer (z : Float) (f : Filament) (p : Progress) : Progress :=
  if f.isFurther && z != p.printedZ then { p with printedZ := z, layer := p.layer + 1 } else p

/-- Charges the time that a way takes; nothing at a feed rate that is not positive. -/
def charge (length feedRate : Float) (p : Progress) : Progress :=
  if 0 < feedRate then { p with time := p.time + length * 60 / feedRate } else p

end Progress

namespace Tracker

def linearMove (c : Config) (w : Words) (t : Tracker) : Tracker × Move :=
  let relative := t.motion.movesFilamentRelatively
  let before := t.activeExtruder.filament
  let effect : Move := ⟨t.motion.position, before.position, before.extrudes relative w.e⟩
  let motion := t.motion.move c w
  let filament := before.advance relative w.e
  let progress := t.progress.countLayer motion.position.z filament
  let progress := progress.charge (motion.length filament) motion.feedRate
  let t := t.updateFilament fun _ => filament.settle
  ({ t with
      motion := { motion with charged := motion.position }
      progress
      lastMove := some effect },
    effect)

/-- Homes axes; the extruder too where it is named and the goal is the home position. -/
def home (c : Config) (w : Words) (toUpper : Bool) (t : Tracker) : Tracker :=
  let t := { t with motion := t.motion.home c w toUpper }
  if !toUpper && w.e.isSome then t.updateFilament Filament.home else t

def setPosition (w : Words) (t : Tracker) : Tracker :=
  { t with motion := t.motion.setPosition w }.updateFilament (Filament.setPosition w.e)

/-- Takes the word of the host that every axis is at home. -/
def confirmHome (c : Config) (t : Tracker) : Tracker :=
  { t with motion := t.motion.home c {} false }

end Tracker

end PrinterShadow
