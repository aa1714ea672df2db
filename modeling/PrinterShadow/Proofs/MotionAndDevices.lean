import PrinterShadow.Proofs.Command.Instruction
import PrinterShadow.Proofs.Tracker.Views
import PrinterShadow.Proofs.UploadGate

/-!
Motion and devices. A command with a G word shapes the course of the print: the motion, the progress
and the filament of the active extruder. A command with an M word shapes the devices around it, the
heaters, the fan and the power among them, unless it starts or ends an upload or says how the
extruder moves. Neither kind reads what the other one shapes, so two such commands may be sent in
either order.
-/

namespace PrinterShadow

def Extruder.withoutFilament (ex : Extruder) : Extruder := { ex with filament := {} }

/-! ## The two kinds of commands -/

namespace Instruction

def IsMotion : Instruction → Prop
  | .linearMove _ | .home _ _ | .setPosition _ | .positioning _ | .nothing => True
  | _ => False

def IsDevice : Instruction → Prop
  | .power _ | .heat _ _ | .heatBed _ | .fanOn _ | .fanOff | .setLineNumber _ | .debug _
  | .monitor _ | .nothing => True
  | _ => False

theorem isMotion_ofG (w : Words) (number : Nat) : (ofG w number).IsMotion := by
  unfold ofG
  split <;> trivial

theorem isDevice_ofM (cmd : Command) {number : Nat} (h : number ∉ [28, 29, 82, 83]) :
    (ofM cmd number).IsDevice := by
  unfold ofM
  split
  case h_1 | h_2 | h_5 | h_6 => exact absurd (by decide) h
  all_goals trivial

end Instruction

namespace Command

/-- Whether a command is taken by its G word: there is one, and no directive. Nor is there a line
number, or the M word that ends an upload. -/
structure IsMotion (cmd : Command) : Prop where
  directive : cmd.directive = none
  lineNumber : cmd.lineNumber = none
  g : cmd.g.isSome
  m : cmd.m ≠ some 29

/-- Whether a command is taken by its M word, and neither starts or ends an upload nor says how the
extruder moves. Nor is there a line number. -/
structure IsDevice (cmd : Command) : Prop where
  directive : cmd.directive = none
  lineNumber : cmd.lineNumber = none
  g : cmd.g = none
  m : ∃ number ∈ cmd.m, number ∉ [28, 29, 82, 83]

variable {cmd : Command}

theorem IsMotion.leavesUpload (h : cmd.IsMotion) : cmd.LeavesUpload := by
  simp only [LeavesUpload, h.directive]
  exact h.m

theorem IsDevice.leavesUpload (h : cmd.IsDevice) : cmd.LeavesUpload := by
  obtain ⟨number, hm, hother⟩ := h.m
  simp only [LeavesUpload, h.directive]
  intro hend
  obtain rfl := Option.some.inj (hm.symm.trans hend)
  simp at hother

theorem IsMotion.instruction (h : cmd.IsMotion) : cmd.instruction.IsMotion := by
  obtain ⟨number, hg⟩ := Option.isSome_iff_exists.mp h.g
  rw [instruction_of_g hg]
  exact Instruction.isMotion_ofG cmd.words number.toNat

theorem IsDevice.instruction (h : cmd.IsDevice) : cmd.instruction.IsDevice := by
  obtain ⟨number, hm, hother⟩ := h.m
  have hnumber : number.toNat ∉ [28, 29, 82, 83] := by
    simpa [← UInt16.toNat_inj] using hother
  have hinstruction : cmd.instruction = .ofM cmd number.toNat := by
    simp only [Command.instruction, h.g, Option.mem_def.mp hm]
  rw [hinstruction]
  exact Instruction.isDevice_ofM cmd hnumber

end Command

namespace Tracker

variable {c : Config} {s t : Tracker} {i j : Instruction}

/-! ## The course and the rest -/

def withoutCourse (t : Tracker) : Tracker :=
  { t with
    motion := {}
    progress := {}
    lastMove := none
    slots := t.slots.map Extruder.withoutFilament }

def withCourse (k : Course) (t : Tracker) : Tracker :=
  { t with
    motion := k.motion
    progress := k.progress
    lastMove := k.lastMove
    slots := t.slots.zipWith (fun ex filament => { ex with filament }) k.filaments }

theorem withCourse_withoutCourse (t : Tracker) : t.withoutCourse.withCourse t.course = t := by
  have hslots : (t.slots.map Extruder.withoutFilament).zipWith
      (fun ex filament => { ex with filament }) (t.slots.map Extruder.filament) = t.slots := by
    rw [List.zipWith_map, List.zipWith_self]
    exact List.map_id' _
  exact congrArg (fun slots => { t with slots }) hslots

/-- A tracker is made up of its course and the rest. -/
theorem eq_of_course (hcourse : s.course = t.course) (hrest : s.withoutCourse = t.withoutCourse) :
    s = t := by
  rw [← withCourse_withoutCourse s, hcourse, hrest, withCourse_withoutCourse]

theorem withoutCourse_updateFilament (f : Filament → Filament) :
    (t.updateFilament f).withoutCourse = t.withoutCourse :=
  congrArg (fun slots => { t.withoutCourse with slots })
    (map_modify_of_eq (fun _ => by rfl) t.active t.slots)

theorem withoutCourse_updateHeater (slot : Nat) (f : Heater → Heater) :
    (t.updateHeater slot f).withoutCourse = t.withoutCourse.updateHeater slot f :=
  congrArg (fun slots => { t.withoutCourse with slots }) (map_modify (fun _ => by rfl) slot t.slots)

theorem resolve_withoutCourse (selector : Int) :
    t.withoutCourse.resolve selector = t.resolve selector :=
  congrArg (resolveSlot selector t.active) (List.length_map _)

/-! ## What devices shape -/

theorem course_obey_of_isDevice (hi : i.IsDevice) : (t.obey c i).1.course = t.course := by
  cases i with
  | heat tool target => exact course_updateHeater _ _
  | linearMove | home | setPosition | positioning | extrusion | upload | selectTool =>
    exact absurd hi id
  | _ => rfl

/-- What a device instruction does to the rest depends on the rest alone. -/
theorem withoutCourse_obey_of_isDevice (hi : i.IsDevice) :
    (t.obey c i).1.withoutCourse = (t.withoutCourse.obey c i).1 := by
  cases i with
  | heat tool target =>
    rw [obey, obey, resolve_withoutCourse]
    exact withoutCourse_updateHeater _ _
  | linearMove | home | setPosition | positioning | extrusion | upload | selectTool =>
    exact absurd hi id
  | _ => rfl

/-! ## What motion shapes -/

theorem withoutCourse_obey_of_isMotion (hi : i.IsMotion) :
    (t.obey c i).1.withoutCourse = t.withoutCourse := by
  cases i with
  | linearMove w =>
    exact withoutCourse_updateFilament fun _ =>
      (t.activeExtruder.filament.advance t.motion.movesFilamentRelatively w.e).settle
  | home w toUpper =>
    change (t.home c w toUpper).withoutCourse = _
    rw [home_eq]
    exact withoutCourse_updateFilament _
  | setPosition w => exact withoutCourse_updateFilament _
  | positioning | nothing => rfl
  | _ => exact absurd hi id

/-! ## Either order -/

theorem obey_obey_comm (hi : i.IsMotion) (hj : j.IsDevice) :
    ((t.obey c i).1.obey c j).1 = ((t.obey c j).1.obey c i).1 ∧
      (t.obey c i).2 = ((t.obey c j).1.obey c i).2 := by
  -- the device instruction leaves the course, so the motion instruction finds the one it would have
  obtain ⟨hcourse, heffect⟩ :=
    course_standsAlone.obey (c := c) (course_obey_of_isDevice (t := t) hj) i
  refine ⟨eq_of_course ?_ ?_, heffect.symm⟩
  · calc ((t.obey c i).1.obey c j).1.course
      _ = (t.obey c i).1.course := course_obey_of_isDevice hj
      _ = ((t.obey c j).1.obey c i).1.course := hcourse.symm
  · calc ((t.obey c i).1.obey c j).1.withoutCourse
      _ = ((t.obey c i).1.withoutCourse.obey c j).1 := withoutCourse_obey_of_isDevice hj
      _ = (t.withoutCourse.obey c j).1 := by rw [withoutCourse_obey_of_isMotion hi]
      _ = (t.obey c j).1.withoutCourse := (withoutCourse_obey_of_isDevice hj).symm
      _ = ((t.obey c j).1.obey c i).1.withoutCourse := (withoutCourse_obey_of_isMotion hi).symm

/-- Neither kind starts or ends an upload. -/
theorem uploading_obey (hi : i.IsMotion ∨ i.IsDevice) :
    (t.obey c i).1.uploading = t.uploading := by
  have hafter := uploading_respond (c := c) (t := t) (.obey i)
  cases i with
  | upload start => rcases hi with hi | hi <;> exact absurd hi id
  | _ => exact hafter

/-- A motion command and a device command may be sent in either order, also while a file is being
uploaded: the tracker comes out the same, and the motion command is answered the same. -/
theorem send_motion_device_comm (c : Config) (t : Tracker) {g m : Command} (hg : g.IsMotion)
    (hm : m.IsDevice) :
    ((t.send c g).1.send c m).1 = ((t.send c m).1.send c g).1 ∧
      (t.send c g).2 = ((t.send c m).1.send c g).2 := by
  cases hup : t.uploading with
  | true =>
    have hgate {cmd : Command} (h : cmd.LeavesUpload) (hnumber : cmd.lineNumber = none) :
        t.send c cmd = (t, none) := by
      rw [send_of_leavesUpload hup h, noteLine_of_lineNumber hnumber]
    simp only [hgate hg.leavesUpload hg.lineNumber, hgate hm.leavesUpload hm.lineNumber, and_self]
  | false =>
    have hmoved : (t.obey c g.instruction).1.uploading = false :=
      (uploading_obey (.inl hg.instruction)).trans hup
    have hset : (t.obey c m.instruction).1.uploading = false :=
      (uploading_obey (.inr hm.instruction)).trans hup
    rw [send_of_not_uploading hup hg.directive hg.lineNumber,
      send_of_not_uploading hup hm.directive hm.lineNumber,
      send_of_not_uploading hmoved hm.directive hm.lineNumber,
      send_of_not_uploading hset hg.directive hg.lineNumber]
    exact obey_obey_comm hg.instruction hm.instruction

/-- The second extruder is selected. -/
def afterToolChange : Tracker := ((start {} 0).send {} { tool := some 1 }).1

/-- The active extruder is moved, and its heater is set: two changes to one slot. -/
theorem send_comm_afterToolChange :
    ((afterToolChange.send {} { g := some 1, words.e := some 4 }).1.send {}
        { m := some 104, words.s := some 210 }).1 =
      ((afterToolChange.send {} { m := some 104, words.s := some 210 }).1.send {}
        { g := some 1, words.e := some 4 }).1 ∧
    (afterToolChange.send {} { g := some 1, words.e := some 4 }).2 =
      ((afterToolChange.send {} { m := some 104, words.s := some 210 }).1.send {}
        { g := some 1, words.e := some 4 }).2 :=
  send_motion_device_comm {} afterToolChange ⟨rfl, rfl, rfl, nofun⟩
    ⟨rfl, rfl, rfl, 104, rfl, by decide⟩

/-- How the extruder moves is no matter of a device: the filament at 4 is sent to 4, or 4 more. -/
example :
    let t := ((start {} 0).send {} { g := some 1, words.e := some 4 }).1
    let g : Command := { g := some 1, words.e := some 4 }
    ((t.send {} g).1.send {} { m := some 83 }).1.activeExtruder.filament.position = 4 ∧
      ((t.send {} { m := some 83 }).1.send {} g).1.activeExtruder.filament.position = 8 := by
  decide +kernel

end Tracker

end PrinterShadow
