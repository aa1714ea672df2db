import PrinterShadow.Proofs.Tracker.Steps

/-!
The motion of a tracker on its own. What an operation does to it depends on the motion, the
configuration and whether a file is being uploaded, and on nothing else of the tracker.
-/

namespace PrinterShadow

instance Cartesian.decidableForall {p : Cartesian → Prop} [DecidablePred p] :
    Decidable (∀ a, p a) :=
  decidable_of_iff (∀ a ∈ all, p a) ⟨fun h a => h a a.mem_all, fun h a _ => h a⟩

def Instruction.words : Instruction → Words
  | .linearMove w => w
  | .home w _ => w
  | .setPosition w => w
  | _ => {}

theorem Command.words_instruction (cmd : Command) :
    cmd.instruction.words = cmd.words ∨ cmd.instruction.words = {} := by
  unfold instruction
  split
  · unfold Instruction.ofG
    split <;> first | exact .inl rfl | exact .inr rfl
  · unfold Instruction.ofM
    split <;> exact .inr rfl
  · exact .inr rfl
  · exact .inr rfl

namespace Motion

variable {c : Config}

@[simp]
theorem get_position_move (w : Words) (m : Motion) (a : Cartesian) :
    (m.move c w).position.get a = (c.limits.get a).clamp (m.target w a) := by
  simp [move]

@[simp]
theorem get_position_home (w : Words) (toUpper : Bool) (m : Motion) (a : Cartesian) :
    (m.home c w toUpper).position.get a =
      if w.covers a then if toUpper then (c.limits.get a).upper else (c.limits.get a).home
      else m.position.get a := by
  simp [home]

@[simp]
theorem get_offset_home (w : Words) (toUpper : Bool) (m : Motion) (a : Cartesian) :
    (m.home c w toUpper).offset.get a = if w.covers a then 0 else m.offset.get a := by
  simp [home]

@[simp]
theorem position_setPosition (w : Words) (m : Motion) :
    (m.setPosition w).position = m.position := rfl

@[simp]
theorem get_offset_setPosition (w : Words) (m : Motion) (a : Cartesian) :
    (m.setPosition w).offset.get a =
      match w.xyz.get a with
      | none => m.offset.get a
      | some v => m.position.get a - v :=
  Xyz.get_ofFn _ a

theorem setPosition_of_none {w : Words} (h : ∀ a, w.xyz.get a = none) (m : Motion) :
    m.setPosition w = m := by
  unfold setPosition
  simp only [h]
  rfl

def obey (c : Config) (m : Motion) : Instruction → Motion
  | .linearMove w => { m.move c w with charged := (m.move c w).position }
  | .home w toUpper => m.home c w toUpper
  | .setPosition w => m.setPosition w
  | .positioning relative => { m with relative }
  | .extrusion relative => { m with extruderRelative := relative }
  | _ => m

def respond (c : Config) (m : Motion) : Tracker.Response → Motion
  | .confirmHome => m.home c {} false
  | .ignore _ => m
  | .gate => m
  | .obey instruction => m.obey c instruction

def report (r : Xyz (Option Float)) (m : Motion) : Motion :=
  { m with
    position := .ofFn fun a =>
      match r.get a with
      | none => m.position.get a
      | some reported => reported + m.offset.get a }

theorem report_of_none {r : Xyz (Option Float)} (h : ∀ a, r.get a = none) (m : Motion) :
    m.report r = m := by
  unfold report
  simp only [h]
  rfl

/-- The motion after an operation, given whether a file is being uploaded. -/
def perform (c : Config) (uploading : Bool) (op : Operation) (m : Motion) : Motion :=
  match op with
  | .send cmd => m.respond c (Tracker.response uploading cmd)
  | .receive line => m.report (Status.Report.ofTokens (Status.tokens line)).position
  | .reset => {}
  | .confirmHome => m.home c {} false
  | _ => m

end Motion

namespace Tracker

variable {c : Config} {t : Tracker}

def Response.uploading (before : Bool) : Response → Bool
  | .obey (.upload start) => start
  | _ => before

theorem motion_noteLine (cmd : Command) : (t.noteLine cmd).motion = t.motion := by
  obtain ⟨lastLine, heq⟩ := noteLine_eq (t := t) cmd
  rw [heq]

theorem uploading_noteLine (cmd : Command) : (t.noteLine cmd).uploading = t.uploading := by
  obtain ⟨lastLine, heq⟩ := noteLine_eq (t := t) cmd
  rw [heq]

theorem motion_respond (r : Response) : (t.respond c r).1.motion = t.motion.respond c r := by
  cases r with
  | obey i =>
    cases i with
    | home w toUpper =>
      change (t.home c w toUpper).motion = _
      rw [home_eq]
      rfl
    | _ => rfl
  | _ => rfl

theorem uploading_respond (r : Response) :
    (t.respond c r).1.uploading = r.uploading t.uploading := by
  cases r with
  | obey i =>
    cases i with
    | home w toUpper =>
      change (t.home c w toUpper).uploading = _
      rw [home_eq]
      rfl
    | _ => rfl
  | _ => rfl

theorem motion_send (cmd : Command) :
    (t.send c cmd).1.motion = t.motion.respond c (response t.uploading cmd) := by
  rw [send_eq, motion_respond, motion_noteLine]

theorem uploading_send (cmd : Command) :
    (t.send c cmd).1.uploading = (response t.uploading cmd).uploading t.uploading := by
  rw [send_eq, uploading_respond, uploading_noteLine]

theorem motion_apply (r : Status.Report) : (t.apply r).motion = t.motion.report r.position := by
  obtain ⟨slots, seen, -, heq⟩ := apply_eq (t := t) r
  rw [heq]
  rfl

theorem uploading_apply (r : Status.Report) : (t.apply r).uploading = t.uploading := by
  obtain ⟨slots, seen, -, heq⟩ := apply_eq (t := t) r
  rw [heq]
  rfl

/-- The motion evolves on its own. -/
theorem motion_perform (op : Operation) :
    (t.perform c op).1.motion = t.motion.perform c t.uploading op := by
  cases op with
  | send cmd => exact motion_send cmd
  | receive line => exact motion_apply _
  | _ => rfl

theorem uploading_perform (op : Operation) :
    (t.perform c op).1.uploading =
      match op with
      | .send cmd => (response t.uploading cmd).uploading t.uploading
      | .reset => false
      | _ => t.uploading := by
  cases op with
  | send cmd => exact uploading_send cmd
  | receive line => exact uploading_apply _
  | _ => rfl

end Tracker

end PrinterShadow
