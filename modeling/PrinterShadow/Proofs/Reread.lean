import PrinterShadow.Proofs.Tracker.Records

/-!
Reading a line again. What a line tells is taken as it is, or added to offsets that no line changes,
and heater outputs are scaled as they come from the line; so the second time all that it tells holds
already.
-/

namespace PrinterShadow

open Status

theorem getD_getD {α : Type} (o : Option α) (x : α) : o.getD (o.getD x) = o.getD x := by
  cases o <;> rfl

theorem Firmware.Identity.update_update (i : Identity) (r : Introduction) :
    (i.update r).update r = i.update r := by
  simp only [update, getD_getD]

theorem Motion.report_report (r : Xyz (Option Float)) (m : Motion) :
    (m.report r).report r = m.report r := by
  refine congrArg (fun position => { m with position }) (Xyz.get_ext fun a => ?_)
  simp only [report, Xyz.get_ofFn]
  cases r.get a <;> rfl

namespace Tracker

variable {t : Tracker} {r : Report}

theorem applyIntroduction_apply : (t.apply r).applyIntroduction r = t.apply r := by
  have hfirmware : (r.introduction.map (t.apply r).firmware.update).getD (t.apply r).firmware =
      (t.apply r).firmware := by
    rw [firmware_apply]
    cases r.introduction with
    | none => rfl
    | some i => exact Firmware.Identity.update_update t.firmware i
  exact congrArg (fun firmware => { t.apply r with firmware }) hfirmware

theorem applyDevice_apply : (t.apply r).applyDevice r = t.apply r := by
  rw [apply_eq_report]
  simp only [applyDevice, reportSlots, getD_getD]

theorem reportFor_apply : (t.apply r).reportFor r = t.reportFor r := by
  have hresolve (selector : Int) : (t.apply r).resolve selector = t.resolve selector := by
    rw [resolve, active_apply, length_slots_apply, resolve]
  funext k
  simp only [reportFor, readingFor, lastFor?, active_apply, hresolve]

theorem reportSlots_apply : (t.apply r).reportSlots (t.reportFor r) = t.apply r := by
  let u := (t.applyIntroduction r).applyDevice r
  have hagain : (u.reportSlots (t.reportFor r)).reportSlots (t.reportFor r) =
      u.reportSlots (t.reportFor r) := by
    rw [reportSlots_reportSlots]
    exact congrArg (u.reportSlots ·) (funext fun k => ExtruderReport.replacing_self _)
  rw [apply_eq_report]
  exact congrArg (fun v : Tracker => { v with
    motion := t.motion.report r.position
    temperatureSeen := t.temperatureSeen || r.current.temperature.isSome }) hagain

/-- What a report tells holds once it is followed. -/
theorem apply_apply (r : Report) (t : Tracker) : (t.apply r).apply r = t.apply r := by
  have hmotion : (t.apply r).motion.report r.position = (t.apply r).motion := by
    rw [motion_apply, Motion.report_report]
  have hseen : ((t.apply r).temperatureSeen || r.current.temperature.isSome) =
      (t.apply r).temperatureSeen := by
    rw [apply_eq_report, Bool.or_assoc, Bool.or_self]
  rw [apply_eq_report r (t.apply r), applyIntroduction_apply, applyDevice_apply, reportFor_apply,
    reportSlots_apply, hmotion, hseen]

/-- Reading a line again changes nothing, and tells the same of it. -/
theorem receive_receive (line : String) (t : Tracker) :
    (t.receive line).1.receive line = t.receive line :=
  congrArg (·, _) (apply_apply _ t)

end Tracker

end PrinterShadow
