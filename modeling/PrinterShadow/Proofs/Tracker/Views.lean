import Mathlib.Logic.Function.Basic
import PrinterShadow.Proofs.Tracker.Filaments

/-!
Views of a tracker. A view may show little more than the course of the print, and yet it stands
alone where none of what it hides comes to bear on it: what a command does to it, and what is told
of a linear move, depends on the view alone.
-/

namespace PrinterShadow

/-- Whether an operation is the host's, and does not start over. -/
def Operation.IsHost : Operation → Prop
  | .receive _ => False
  | .reset => False
  | _ => True

/-- What moving shapes, and the slot whose filament is moved. -/
structure Course where
  motion : Motion
  progress : Progress
  lastMove : Option Move
  active : Nat
  /-- The filament record of every slot. -/
  filaments : List Filament
  deriving DecidableEq, Repr

namespace Tracker

variable {c : Config} {s t : Tracker}

/-! ## The course -/

def course (t : Tracker) : Course where
  motion := t.motion
  progress := t.progress
  lastMove := t.lastMove
  active := t.active
  filaments := t.filaments

theorem course_updateFilament (f : Filament → Filament) :
    (t.updateFilament f).course =
      { t.course with filaments := t.course.filaments.modify t.course.active f } :=
  congrArg (fun filaments => { t.course with filaments }) (map_filament_updateFilament f)

theorem course_updateHeater (slot : Nat) (f : Heater → Heater) :
    (t.updateHeater slot f).course = t.course :=
  congrArg (fun filaments => { t.course with filaments }) (map_filament_updateHeater slot f)

theorem filament_of_course (h : s.course = t.course) :
    s.activeExtruder.filament = t.activeExtruder.filament := by
  have hactive : s.active = t.active := congrArg Course.active h
  have hfilaments : s.filaments = t.filaments := congrArg Course.filaments h
  rw [activeExtruder_filament, activeExtruder_filament, hactive, hfilaments]

theorem resolve_of_course (h : s.course = t.course) (selector : Int) :
    s.resolve selector = t.resolve selector := by
  have hactive : s.active = t.active := congrArg Course.active h
  have hlength := congrArg (fun k : Course => k.filaments.length) h
  simp only [course, filaments, List.length_map] at hlength
  rw [resolve, resolve, hactive, hlength]

theorem capture_of_course (h : s.course = t.course) : s.capture = t.capture := by
  have hmotion : s.motion = t.motion := congrArg Course.motion h
  rw [capture, capture, hmotion, filament_of_course h]

/-! ## Views that stand alone -/

/-- A view that shows the course and no heater of an extruder. After each other change that a host
operation makes, trackers that looked alike still do. -/
structure StandsAlone {α : Type} (v : Tracker → α) : Prop where
  course : Tracker.course.FactorsThrough v
  heater (slot : Nat) (f : Heater → Heater) (t : Tracker) : v (t.updateHeater slot f) = v t
  filament (f : Filament → Filament) : (fun t => v (updateFilament t f)).FactorsThrough v
  moved (motion : Motion) (progress : Progress) (lastMove : Option Move) :
    (fun t : Tracker => v { t with motion, progress, lastMove }).FactorsThrough v
  active (active : Nat) : (fun t : Tracker => v { t with active }).FactorsThrough v
  uploading (uploading : Bool) : (fun t : Tracker => v { t with uploading }).FactorsThrough v
  powerOn (powerOn : Bool) : (fun t : Tracker => v { t with powerOn }).FactorsThrough v
  bed (f : Heater → Heater) : (fun t : Tracker => v { t with bed := f t.bed }).FactorsThrough v
  fan (on : Bool) (voltage : Option Int32) :
    (fun t : Tracker => v { t with fan := ⟨on, voltage.getD t.fan.voltage⟩ }).FactorsThrough v
  lastLine (f : UInt32 → UInt32) :
    (fun t : Tracker => v { t with lastLine := f t.lastLine }).FactorsThrough v
  debugLevel (f : Int32 → Int32) :
    (fun t : Tracker => v { t with debugLevel := f t.debugLevel }).FactorsThrough v
  temperatureMonitor (temperatureMonitor : Int32) :
    (fun t : Tracker => v { t with temperatureMonitor }).FactorsThrough v
  pause (pause : Option Pause) : (fun t : Tracker => v { t with pause }).FactorsThrough v

theorem course_standsAlone : StandsAlone course where
  course _ _ h := h
  heater slot f _ := course_updateHeater slot f
  filament f s t h := by
    dsimp only
    rw [course_updateFilament, course_updateFilament, h]
  moved motion progress lastMove _ _ h :=
    congrArg (fun k : Course => { k with motion, progress, lastMove }) h
  active active _ _ h := congrArg (fun k : Course => { k with active }) h
  uploading _ _ _ h := h
  powerOn _ _ _ h := h
  bed _ _ _ h := h
  fan _ _ _ _ h := h
  lastLine _ _ _ h := h
  debugLevel _ _ _ h := h
  temperatureMonitor _ _ _ h := h
  pause _ _ _ h := h

namespace StandsAlone

variable {α : Type} {v : Tracker → α}

theorem motion (hv : StandsAlone v) (f : Motion → Motion) :
    (fun t : Tracker => v { t with motion := f t.motion }).FactorsThrough v := by
  intro s t h
  have hcourse := hv.course h
  have hmotion : s.motion = t.motion := congrArg Course.motion hcourse
  have hprogress : s.progress = t.progress := congrArg Course.progress hcourse
  have hlastMove : s.lastMove = t.lastMove := congrArg Course.lastMove hcourse
  calc v { s with motion := f s.motion }
    _ = v { t with motion := f s.motion, progress := s.progress, lastMove := s.lastMove } :=
      hv.moved _ _ _ h
    _ = v { t with motion := f t.motion } := by rw [hmotion, hprogress, hlastMove]

theorem linearMove (hv : StandsAlone v) (h : v s = v t) (w : Words) :
    v (s.linearMove c w).1 = v (t.linearMove c w).1 ∧
      (s.linearMove c w).2 = (t.linearMove c w).2 := by
  have hcourse := hv.course h
  have hmotion : s.motion = t.motion := congrArg Course.motion hcourse
  have hprogress : s.progress = t.progress := congrArg Course.progress hcourse
  unfold Tracker.linearMove
  rw [hmotion, hprogress, filament_of_course hcourse]
  exact ⟨hv.moved _ _ _ (hv.filament _ h), rfl⟩

theorem home (hv : StandsAlone v) (w : Words) (toUpper : Bool) :
    (fun t : Tracker => v (t.home c w toUpper)).FactorsThrough v := by
  intro s t h
  dsimp only
  rw [home_eq, home_eq]
  exact hv.filament _ (hv.motion (Motion.home c w toUpper) h)

theorem confirmHome (hv : StandsAlone v) :
    (fun t : Tracker => v (t.confirmHome c)).FactorsThrough v :=
  hv.motion (Motion.home c {} false)

/-- What an instruction does to the view, and what is told of it, depends on the view alone. -/
theorem obey (hv : StandsAlone v) (h : v s = v t) (i : Instruction) :
    v (s.obey c i).1 = v (t.obey c i).1 ∧ (s.obey c i).2 = (t.obey c i).2 := by
  cases i with
  | linearMove w =>
    obtain ⟨hview, heffect⟩ := hv.linearMove (c := c) h w
    exact ⟨hview, congrArg some heffect⟩
  | home w toUpper => exact ⟨hv.home w toUpper h, rfl⟩
  | setPosition w => exact ⟨hv.filament _ (hv.motion (Motion.setPosition w) h), rfl⟩
  | positioning relative => exact ⟨hv.motion (fun m => { m with relative }) h, rfl⟩
  | extrusion relative =>
    exact ⟨hv.motion (fun m => { m with extruderRelative := relative }) h, rfl⟩
  | upload start => exact ⟨hv.uploading start h, rfl⟩
  | power on => exact ⟨hv.powerOn on h, rfl⟩
  | heat tool target =>
    refine ⟨?_, rfl⟩
    rw [Tracker.obey, Tracker.obey, hv.heater, hv.heater, h]
  | heatBed target =>
    exact ⟨hv.bed (fun bed => { bed with target := target.getD bed.target }) h, rfl⟩
  | fanOn voltage => exact ⟨hv.fan true (voltage.map wholePart) h, rfl⟩
  | fanOff => exact ⟨hv.fan false none h, rfl⟩
  | setLineNumber number => exact ⟨hv.lastLine (fun _ => number) h, rfl⟩
  | debug level => exact ⟨hv.debugLevel (level.map wholePart).getD h, rfl⟩
  | monitor extruder => exact ⟨hv.temperatureMonitor _ h, rfl⟩
  | selectTool tool =>
    refine ⟨?_, rfl⟩
    rw [Tracker.obey, Tracker.obey, resolve_of_course (hv.course h)]
    exact hv.active _ h
  | nothing => exact ⟨h, rfl⟩

theorem respond (hv : StandsAlone v) (h : v s = v t) (r : Response) :
    v (s.respond c r).1 = v (t.respond c r).1 ∧ (s.respond c r).2 = (t.respond c r).2 := by
  cases r with
  | confirmHome => exact ⟨hv.confirmHome h, rfl⟩
  | ignore directive => exact ⟨h, rfl⟩
  | gate => exact ⟨h, rfl⟩
  | obey i => exact hv.obey h i

theorem noteLine (hv : StandsAlone v) (cmd : Command) :
    (fun t : Tracker => v (t.noteLine cmd)).FactorsThrough v := by
  intro s t h
  unfold Tracker.noteLine
  cases cmd.directive with
  | some text => exact h
  | none => exact hv.lastLine cmd.lineNumber.getD h

/-- A command is followed alike where a file is being uploaded on both sides, or on neither. -/
theorem send (hv : StandsAlone v) (h : v s = v t) (hup : s.uploading = t.uploading)
    (cmd : Command) : v (s.send c cmd).1 = v (t.send c cmd).1 ∧
      (s.send c cmd).2 = (t.send c cmd).2 := by
  rw [send_eq, send_eq, hup]
  exact hv.respond (hv.noteLine cmd h) _

/-- What a host operation does to the view depends on the view alone. -/
theorem perform (hv : StandsAlone v) (h : v s = v t) (hup : s.uploading = t.uploading)
    {op : Operation} (hop : op.IsHost) : v (s.perform c op).1 = v (t.perform c op).1 := by
  cases op with
  | send cmd => exact (hv.send h hup cmd).1
  | receive line => exact absurd hop id
  | reset => exact absurd hop id
  | confirmHome => exact hv.confirmHome h
  | increaseLine =>
    exact hv.lastLine (fun number => if number = largestLine then number else number + 1) h
  | decreaseLine => exact hv.lastLine (fun number => if number = 0 then 0 else number - 1) h
  | storePause =>
    change v { s with pause := some s.capture } = v { t with pause := some t.capture }
    rw [capture_of_course (hv.course h)]
    exact hv.pause _ h
  | _ => exact h

end StandsAlone

end Tracker

end PrinterShadow
