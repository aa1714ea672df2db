import PrinterShadow.Gcode.Line
import PrinterShadow.Tracker.Motion

/-!
Pausing a print, resuming it, and jogging. What is written for the printer is in the firmware's
coordinates. The position is restored before the mode of positioning, so that a relative move after
the resume starts from the right place.
-/

namespace PrinterShadow

/-- The lines that bring the printer back to a captured pause. They switch to absolute positioning,
so only a relative capture needs a line for its mode. -/
def Pause.lines (c : Config) (p : Pause) : List Gcode.Line :=
  [⟨90, []⟩,
    ⟨1, [.ofFloat 'X' 2 p.position.x, .ofFloat 'Y' 2 p.position.y,
      .ofFloat 'F' 0 (c.xyJogSpeed * 60)]⟩,
    ⟨1, [.ofFloat 'Z' 2 p.position.z, .ofFloat 'F' 0 (c.zJogSpeed * 60)]⟩,
    ⟨92, [.ofFloat 'E' 4 p.filament]⟩] ++
  (if p.relative then [⟨91, []⟩] else []) ++
  [⟨1, [.ofFloat 'F' 0 p.feedRate]⟩]

namespace Tracker

/-- What a pause would capture now. -/
def capture (t : Tracker) : Pause :=
  let filament := t.activeExtruder.filament
  { position := .ofFn t.motion.coordinate
    filament := filament.position - filament.offset
    feedRate := t.motion.feedRate
    relative := t.motion.relative }

/-- Captures a pause in place of an earlier one. -/
def storePause (t : Tracker) : Tracker :=
  { t with pause := some t.capture }

/-- The lines that resume the print; none where no pause is captured. -/
def resumeLines (c : Config) (t : Tracker) : List Gcode.Line :=
  match t.pause with
  | none => []
  | some p => p.lines c

def resumeCommands (c : Config) (t : Tracker) : List String :=
  (t.resumeLines c).map Gcode.Line.render

/-- The word that moves an axis by `delta` in the present mode. -/
def jogWord (axis : Axis) (delta : Float) (t : Tracker) : Float :=
  match axis with
  | .extruder =>
    if t.motion.movesFilamentRelatively then delta
    else t.activeExtruder.filament.counter + delta
  | .cartesian a => if t.motion.relative then delta else t.motion.coordinate a + delta

/-- The line that moves an axis by `delta` at a feed rate. -/
def jogLine (axis : Axis) (delta feedRate : Float) (t : Tracker) : Gcode.Line :=
  ⟨1, [.ofFloat axis.letter 2 (t.jogWord axis delta), .ofFloat 'F' 0 feedRate]⟩

def jogCommand (axis : Axis) (delta feedRate : Float) (t : Tracker) : String :=
  (t.jogLine axis delta feedRate).render

end Tracker

end PrinterShadow
