import PrinterShadow.Command.Instruction
import PrinterShadow.Decimal.Exact
import PrinterShadow.Tracker.Motion

/-!
Following what is sent to the printer. A directive is for the host and only says, if anything, that
the printer is at home. A line number is always noted; while a file is uploaded nothing else is
followed but the end of the upload.
-/

namespace PrinterShadow

namespace Tracker

inductive Response where
  | confirmHome
  /-- A directive that says nothing about the printer. -/
  | ignore (directive : String)
  /-- The command goes into the file that is being uploaded. -/
  | gate
  | obey (instruction : Instruction)
  deriving DecidableEq, Repr

/-- What the tracker does on a command, given whether a file is being uploaded. -/
def response (uploading : Bool) (cmd : Command) : Response :=
  match cmd.directive with
  | some text => if Command.confirmsHome text then .confirmHome else .ignore text
  | none => if uploading && cmd.isGated then .gate else .obey cmd.instruction

/-- Follows an instruction; a linear move has an effect to tell. -/
def obey (c : Config) (t : Tracker) : Instruction → Tracker × Option Move
  | .linearMove w =>
    let (t, effect) := t.linearMove c w
    (t, some effect)
  | .home w toUpper => (t.home c w toUpper, none)
  | .setPosition w => (t.setPosition w, none)
  | .positioning relative => ({ t with motion.relative := relative }, none)
  | .extrusion relative => ({ t with motion.extruderRelative := relative }, none)
  | .upload start => ({ t with uploading := start }, none)
  | .power on => ({ t with powerOn := on }, none)
  | .heat tool target =>
    let slot := t.resolve ((tool.map Int32.toInt).getD (-1))
    (t.updateHeater slot fun h => { h with target := target.getD h.target }, none)
  | .heatBed target => ({ t with bed.target := target.getD t.bed.target }, none)
  | .fanOn voltage =>
    ({ t with fan := ⟨true, (voltage.map wholePart).getD t.fan.voltage⟩ }, none)
  | .fanOff => ({ t with fan.on := false }, none)
  | .setLineNumber number => ({ t with lastLine := number }, none)
  | .debug level => ({ t with debugLevel := (level.map wholePart).getD t.debugLevel }, none)
  | .monitor extruder => ({ t with temperatureMonitor := (extruder.map wholePart).getD 0 }, none)
  | .selectTool tool => ({ t with active := t.resolve tool.toInt }, none)
  | .nothing => (t, none)

/-- The tracker with a command's line number noted. A directive's is not. -/
def noteLine (cmd : Command) (t : Tracker) : Tracker :=
  match cmd.directive with
  | some _ => t
  | none => { t with lastLine := cmd.lineNumber.getD t.lastLine }

/-- Follows one command that is sent, and tells the effect of a linear move. -/
def send (c : Config) (cmd : Command) (t : Tracker) : Tracker × Option Move :=
  let t := t.noteLine cmd
  match response t.uploading cmd with
  | .confirmHome => (t.confirmHome c, none)
  | .ignore _ => (t, none)
  | .gate => (t, none)
  | .obey instruction => t.obey c instruction

end Tracker

end PrinterShadow
