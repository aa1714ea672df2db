import PrinterShadow.Injection
import PrinterShadow.Log.Journal
import PrinterShadow.Tracker.Snapshot

/-!
Everything that can be asked of a tracker, as one type of operations. `perform` gives the tracker
afterwards and what is answered, and `run` follows a list of operations.
-/

namespace PrinterShadow

inductive Operation where
  | send (command : Command)
  | receive (line : String)
  | reset
  | confirmHome
  | increaseLine
  | decreaseLine
  | snapshot
  | extruder (selector : Int)
  | storePause
  | resumeCommands
  /-- Hands the commands that resume the print to a sink. -/
  | resume (sink : Sink)
  | jog (axis : Axis) (delta feedRate : Float)

inductive Answer where
  | done
  | moved (effect : Option Move)
  | classified (lineClass : LineClass)
  | lineNumber (number : UInt32)
  | snapshot (snapshot : Snapshot)
  | extruder (record : Extruder)
  | paused (pause : Pause)
  | commands (lines : List String)
  | delivered (commands : List String) (error : Option InjectionError)
  | jog (line : String)

namespace Tracker

def perform (c : Config) (op : Operation) (t : Tracker) : Tracker × Answer :=
  match op with
  | .send command =>
    let (t, effect) := t.send c command
    (t, .moved effect)
  | .receive line =>
    let (t, lineClass) := t.receive line
    (t, .classified lineClass)
  | .reset => (t.reset, .done)
  | .confirmHome => (t.confirmHome c, .done)
  | .increaseLine => (t.increaseLine, .lineNumber t.increaseLine.lastLine)
  | .decreaseLine => (t.decreaseLine, .lineNumber t.decreaseLine.lastLine)
  | .snapshot => (t, .snapshot (t.snapshot c))
  | .extruder selector => (t, .extruder (t.extruder selector))
  | .storePause => (t.storePause, .paused t.capture)
  | .resumeCommands => (t, .commands (t.resumeCommands c))
  | .resume sink =>
    let (delivered, error) := sink.deliver (t.resumeCommands c)
    (t, .delivered delivered error)
  | .jog axis delta feedRate => (t, .jog (t.jogCommand axis delta feedRate))

def events (c : Config) (op : Operation) (t : Tracker) : List Log.Event :=
  match op with
  | .send command => Log.sending c command t
  | .receive line => Log.receiving line t
  | .reset => [.reset]
  | .extruder selector => Log.resolving selector t.slots.length
  | .storePause => [.pauseCaptured t.capture]
  | .resumeCommands => Log.resumption t
  | .resume _ => Log.resumption t ++ [.resuming (t.resumeLines c).length]
  | _ => []

def run (c : Config) (ops : List Operation) (t : Tracker) : Tracker :=
  ops.foldl (fun t op => (t.perform c op).1) t

end Tracker

end PrinterShadow
