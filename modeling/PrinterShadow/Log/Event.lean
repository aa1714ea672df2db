import PrinterShadow.Decimal.Fixed
import PrinterShadow.Decimal.Shortest
import PrinterShadow.Tracker.Basic

/-!
What the tracker tells its log: events, each with a level and a message.
-/

namespace PrinterShadow

namespace Log

inductive Level where
  | trace | debug | info | warn
  deriving DecidableEq, Repr

def Level.name : Level → String
  | .trace => "TRACE"
  | .debug => "DEBUG"
  | .info => "INFO"
  | .warn => "WARN"

inductive Event where
  | selectorOutOfRange (selector : Int) (slots : Nat)
  | notNumeric (key value : String)
  | homeConfirmed
  | directiveIgnored (directive : String)
  | toolChanged (tool : Int) (slot : Nat)
  | uploadStarted
  | uploadFinished
  /-- A move led beyond the limits of an axis. -/
  | bounded (axis : Cartesian) (target : Float) (limits : Limits)
  | feedNotPositive (feedRate : Float)
  | homed (everything toUpper : Bool)
  | firmwareIdentified (identity : Firmware.Identity)
  | reset
  | pauseCaptured (pause : Pause)
  | nothingPaused
  | resuming (commands : Nat)
  deriving DecidableEq, Repr

namespace Event

def level : Event → Level
  | .notNumeric .. | .directiveIgnored .. => .trace
  | .firmwareIdentified .. | .resuming .. => .info
  | .bounded .. | .feedNotPositive .. | .nothingPaused => .warn
  | _ => .debug

def message : Event → String
  | .selectorOutOfRange selector slots =>
    s!"Extruder selector {selector} out of range ({slots} slots), using extruder 0"
  | .notNumeric key value => s!"Ignoring non-numeric value '{value}' for {key}"
  | .homeConfirmed => "Host confirmed printer is at home"
  | .directiveIgnored directive => s!"Ignoring host directive '{directive}'"
  | .toolChanged tool slot => s!"Tool change T{tool} -> extruder {slot}"
  | .uploadStarted => "Upload started, ignoring commands until M29"
  | .uploadFinished => "Upload finished"
  | .bounded axis target limits =>
    s!"{axis.letter} {fixedText 3 target} outside " ++
      s!"[{shortestText limits.lower}, {shortestText limits.upper}], " ++
      s!"clamped to {shortestText (limits.clamp target)}; axis no longer homed"
  | .feedNotPositive feedRate =>
    s!"Feed rate {shortestText feedRate} is not positive, skipping time estimate"
  | .homed everything toUpper =>
    let axes := if everything then "all axes" else "selected axes"
    let goal := if toUpper then "max" else "home"
    s!"Homed {axes} to {goal}"
  | .firmwareIdentified identity =>
    s!"Firmware identified: {identity.name} ({identity.family.name}), " ++
      s!"{identity.extruderCount.toInt} extruder(s) reported"
  | .reset => "Printer state reset"
  | .pauseCaptured p =>
    s!"Pause captured at X{fixedText 2 p.position.x} Y{fixedText 2 p.position.y} " ++
      s!"Z{fixedText 2 p.position.z} E{fixedText 4 p.filament}"
  | .nothingPaused => "Resume requested without a captured pause"
  | .resuming commands => s!"Resuming from pause with {commands} commands"

/-- The level and the message. -/
def text (e : Event) : String :=
  s!"{e.level.name} {e.message}"

end Event

end Log

end PrinterShadow
