import Mathlib.Data.List.Induction
import PrinterShadow.Proofs.Tracker.Motion
import PrinterShadow.Proofs.Tracker.Slots

/-!
What a report makes of a tracker, in closed form (`apply_eq_report`). Of the values that it has for
one extruder the later replace the earlier (`ExtruderReport.replacing`), so for each slot they come
down to one reading, one target and one position, and following a report is a change to each slot on
its own.
-/

namespace PrinterShadow

namespace Status

/-- What a report has for one extruder. -/
structure ExtruderReport where
  reading : Reading := ⟨none, none⟩
  target : Option Float := none
  position : Option Float := none

/-- A reading after an older one: what it has no value of is that of the older one. -/
def Reading.replacing (r old : Reading) : Reading :=
  ⟨r.temperature.or old.temperature, r.output.or old.output⟩

theorem Reading.replacing_nothing (r : Reading) : r.replacing ⟨none, none⟩ = r := by
  simp [replacing]

theorem Reading.nothing_replacing (r : Reading) : (⟨none, none⟩ : Reading).replacing r = r := by
  simp [replacing]

def ExtruderReport.replacing (x old : ExtruderReport) : ExtruderReport :=
  ⟨x.reading.replacing old.reading, x.target.or old.target, x.position.or old.position⟩

theorem ExtruderReport.replacing_self (x : ExtruderReport) : x.replacing x = x := by
  obtain ⟨⟨temperature, output⟩, target, position⟩ := x
  cases temperature <;> cases output <;> cases target <;> cases position <;> rfl

/-- The reading of the active extruder as far as it counts: without a temperature there is none. -/
def Report.activeReading (r : Report) : Reading :=
  if r.current.temperature.isSome then r.current else ⟨none, none⟩

/-- The target that is reported last for the first extruder. -/
def Report.firstTarget? (r : Report) : Option Float :=
  r.extruderTargets.reverse.findSome? id

end Status

open Status

/-- An extruder after what is reported of it. -/
def Extruder.report (family : Firmware.Family) (x : ExtruderReport) (ex : Extruder) : Extruder :=
  { ex with
    heater := { ex.heater.update family x.reading with target := x.target.getD ex.heater.target }
    filament.position := x.position.getD ex.filament.position }

/-- What is reported of an extruder twice comes to one report of it. -/
theorem Extruder.report_report (family : Firmware.Family) (old x : ExtruderReport)
    (ex : Extruder) :
    (ex.report family old).report family x = ex.report family (x.replacing old) := by
  obtain ⟨⟨temperature, output⟩, target, position⟩ := x
  cases temperature <;> cases output <;> cases target <;> cases position <;> rfl

namespace Tracker

variable {t : Tracker}

/-! ## Changes to each slot on its own -/

/-- Takes in what is reported of each slot. -/
def reportSlots (f : Nat → ExtruderReport) (t : Tracker) : Tracker :=
  { t with slots := t.slots.mapIdx fun k ex => ex.report t.firmware.family (f k) }

theorem reportSlots_reportSlots (f g : Nat → ExtruderReport) (t : Tracker) :
    (t.reportSlots f).reportSlots g = t.reportSlots fun k => (g k).replacing (f k) := by
  refine congrArg (fun slots => { t with slots }) (List.mapIdx_mapIdx.trans ?_)
  exact congrArg (List.mapIdx · t.slots) (funext₂ fun k ex => Extruder.report_report ..)

theorem reportSlots_of_nothing {f : Nat → ExtruderReport} (h : ∀ k, f k = {}) (t : Tracker) :
    t.reportSlots f = t := by
  refine congrArg (fun slots => { t with slots }) (List.ext_getElem? fun k => ?_)
  rw [List.getElem?_mapIdx]
  simp only [h]
  exact Option.map_id'

theorem length_slots_reportSlots (f : Nat → ExtruderReport) (t : Tracker) :
    (t.reportSlots f).slots.length = t.slots.length :=
  List.length_mapIdx

theorem resolve_reportSlots (f : Nat → ExtruderReport) (t : Tracker) (selector : Int) :
    (t.reportSlots f).resolve selector = t.resolve selector := by
  rw [resolve, length_slots_reportSlots]
  rfl

/-- A change to one slot that takes in a report of it. -/
theorem modify_eq_reportSlots {g : Extruder → Extruder} {x : ExtruderReport}
    (h : ∀ ex, g ex = ex.report t.firmware.family x) (slot : Nat) :
    { t with slots := t.slots.modify slot g } =
      t.reportSlots fun k => if k = slot then x else {} := by
  refine congrArg (fun slots => { t with slots }) (List.ext_getElem? fun k => ?_)
  rw [List.getElem?_modify, List.getElem?_mapIdx]
  refine congrArg (Option.map · t.slots[k]?) (funext fun ex => ?_)
  simp only [eq_comm (a := k)]
  split
  · exact h ex
  · rfl

theorem updateReading_eq (slot : Nat) (r : Reading) (t : Tracker) :
    t.updateHeater slot (Heater.update t.firmware.family r) =
      t.reportSlots fun k => if k = slot then { reading := r } else {} :=
  modify_eq_reportSlots (g := fun ex => { ex with heater := ex.heater.update _ r })
    (fun _ => rfl) slot

theorem updateTarget_eq (slot : Nat) (target : Option Float) (t : Tracker) :
    t.updateHeater slot (fun h => { h with target := target.getD h.target }) =
      t.reportSlots fun k => if k = slot then { target } else {} :=
  modify_eq_reportSlots (g := fun ex =>
    { ex with heater.target := target.getD ex.heater.target }) (fun _ => rfl) slot

theorem updatePosition_eq (e : Float) (t : Tracker) :
    t.updateFilament (fun f => { f with position := e }) =
      t.reportSlots fun k => if k = t.active then { position := some e } else {} :=
  modify_eq_reportSlots (g := fun ex => { ex with filament.position := e }) (fun _ => rfl) t.active

/-! ## Readings by number -/

/-- The slot of an extruder by number is the number, where there is such a slot, else the first. -/
theorem resolve_natCast (n : Nat) : t.resolve n = if n < t.slots.length then n else 0 := by
  unfold resolve resolveSlot
  rw [if_neg (Int.not_lt.mpr (Int.natCast_nonneg n)), Int.toNat_natCast]
  split <;> split <;> first | rfl | omega

/-- Takes in the reading of an extruder by its number. -/
def takeReading (t : Tracker) (x : Reading × Nat) : Tracker :=
  t.updateHeater (t.resolve x.2) (Heater.update t.firmware.family x.1)

/-- Of readings by number, the last value for a slot. -/
def lastFor? {α : Type} (t : Tracker) (xs : List (Reading × Nat)) (f : Reading → Option α)
    (k : Nat) : Option α :=
  xs.reverse.findSome? fun x => if t.resolve x.2 = k then f x.1 else none

theorem lastFor?_concat {α : Type} (xs : List (Reading × Nat)) (x : Reading × Nat)
    (f : Reading → Option α) (k : Nat) :
    t.lastFor? (xs ++ [x]) f k =
      (if t.resolve x.2 = k then f x.1 else none).or (t.lastFor? xs f k) := by
  rw [lastFor?, List.reverse_append, List.reverse_singleton, List.singleton_append,
    List.findSome?_cons]
  cases (if t.resolve x.2 = k then f x.1 else none) <;> rfl

/-- What readings by number come to for a slot. -/
def readingFor (t : Tracker) (xs : List (Reading × Nat)) (k : Nat) : Reading :=
  ⟨t.lastFor? xs Reading.temperature k, t.lastFor? xs Reading.output k⟩

theorem readingFor_concat (xs : List (Reading × Nat)) (x : Reading × Nat) (k : Nat) :
    t.readingFor (xs ++ [x]) k =
      if k = t.resolve x.2 then x.1.replacing (t.readingFor xs k) else t.readingFor xs k := by
  unfold readingFor
  rw [lastFor?_concat, lastFor?_concat]
  simp only [eq_comm (a := k)]
  split <;> rfl

theorem readingFor_reportSlots (f : Nat → ExtruderReport) (xs : List (Reading × Nat)) (k : Nat) :
    (t.reportSlots f).readingFor xs k = t.readingFor xs k := by
  simp only [readingFor, lastFor?, resolve_reportSlots]

/-- Readings that are taken in one after another come to one for each slot. -/
theorem foldl_takeReading_eq (xs : List (Reading × Nat)) (t : Tracker) :
    xs.foldl takeReading t = t.reportSlots fun k => { reading := t.readingFor xs k } := by
  induction xs using List.reverseRecOn with
  | nil => exact (reportSlots_of_nothing (fun _ => rfl) t).symm
  | append_singleton xs x ih =>
    rw [List.foldl_append, ih, List.foldl_cons, List.foldl_nil, takeReading, updateReading_eq,
      resolve_reportSlots, reportSlots_reportSlots]
    refine congrArg (t.reportSlots ·) (funext fun k => ?_)
    rw [readingFor_concat]
    split <;> rfl

/-! ## The steps of a report -/

theorem applyFilament_eq (r : Report) (t : Tracker) :
    t.applyFilament r =
      t.reportSlots fun k => { position := if k = t.active then r.filament else none } := by
  unfold applyFilament
  cases r.filament with
  | none => exact (reportSlots_of_nothing (fun k => by rw [ite_self]) t).symm
  | some e =>
    refine (updatePosition_eq e t).trans (congrArg (t.reportSlots ·) (funext fun k => ?_))
    split <;> rfl

theorem applyCurrent_eq (r : Report) (t : Tracker) :
    t.applyCurrent r =
      { t.reportSlots fun k =>
          { reading := if k = t.active then r.activeReading else ⟨none, none⟩ } with
        temperatureSeen := t.temperatureSeen || r.current.temperature.isSome } := by
  unfold applyCurrent Report.activeReading
  cases r.current.temperature.isSome with
  | false =>
    rw [reportSlots_of_nothing fun k => by simp, Bool.or_false]
    rfl
  | true =>
    rw [if_pos rfl, updateReading_eq, Bool.or_true]
    refine congrArg (fun f => { t.reportSlots f with temperatureSeen := true }) (funext fun k => ?_)
    split <;> rfl

theorem applyTargets_eq (r : Report) (t : Tracker) :
    t.applyTargets r =
      t.reportSlots fun k => { target := if k = 0 then r.firstTarget? else none } := by
  unfold applyTargets Report.firstTarget?
  induction r.extruderTargets using List.reverseRecOn with
  | nil => exact (reportSlots_of_nothing (fun k => by simp) t).symm
  | append_singleton targets target ih =>
    rw [List.foldl_append, ih, List.foldl_cons, List.foldl_nil, updateTarget_eq,
      reportSlots_reportSlots, List.reverse_append, List.reverse_singleton, List.singleton_append,
      List.findSome?_cons]
    refine congrArg (t.reportSlots ·) (funext fun k => ?_)
    split
    · cases target <;> rfl
    · rfl

/-- What a report has for the extruder in a slot. -/
def reportFor (t : Tracker) (r : Report) (k : Nat) : ExtruderReport where
  reading :=
    (if k = t.active then r.activeReading else ⟨none, none⟩).replacing
      (t.readingFor r.extruders.zipIdx k)
  target := if k = 0 then r.firstTarget? else none
  position := if k = t.active then r.filament else none

/-- What a report makes of a tracker. -/
theorem apply_eq_report (r : Report) (t : Tracker) :
    t.apply r =
      { ((t.applyIntroduction r).applyDevice r).reportSlots (t.reportFor r) with
        motion := t.motion.report r.position
        temperatureSeen := t.temperatureSeen || r.current.temperature.isSome } := by
  set u := (t.applyIntroduction r).applyPosition r with hu
  have hslots : (((u.applyFilament r).applyExtruders r).applyCurrent r).applyTargets r =
      { u.reportSlots (t.reportFor r) with
        temperatureSeen := t.temperatureSeen || r.current.temperature.isSome } := by
    have hextruders (v : Tracker) :
        v.applyExtruders r = r.extruders.zipIdx.foldl takeReading v := rfl
    rw [applyFilament_eq, hextruders, foldl_takeReading_eq, applyCurrent_eq, applyTargets_eq]
    simp only [readingFor_reportSlots]
    let f (k : Nat) : ExtruderReport := { position := if k = u.active then r.filament else none }
    let g (k : Nat) : ExtruderReport := { reading := u.readingFor r.extruders.zipIdx k }
    let h (k : Nat) : ExtruderReport :=
      { reading := if k = u.active then r.activeReading else ⟨none, none⟩ }
    let i (k : Nat) : ExtruderReport := { target := if k = 0 then r.firstTarget? else none }
    change { (((u.reportSlots f).reportSlots g).reportSlots h).reportSlots i with
      temperatureSeen := t.temperatureSeen || r.current.temperature.isSome } = _
    rw [reportSlots_reportSlots, reportSlots_reportSlots, reportSlots_reportSlots]
    refine congrArg (fun x => { u.reportSlots x with
      temperatureSeen := t.temperatureSeen || r.current.temperature.isSome }) (funext fun k => ?_)
    simp only [ExtruderReport.replacing, Reading.replacing_nothing, Reading.nothing_replacing,
      Option.none_or, Option.or_none, f, g, h, i]
    rfl
  change ((((u.applyFilament r).applyExtruders r).applyCurrent r).applyTargets r).applyDevice r = _
  rw [hslots]
  rfl

theorem firmware_apply (r : Report) :
    (t.apply r).firmware = (r.introduction.map t.firmware.update).getD t.firmware := by
  rw [apply_eq_report]
  rfl

theorem extruderAt_apply {k : Nat} (hk : k < t.slots.length) (r : Report) :
    (t.apply r).extruderAt k =
      (t.extruderAt k).report (t.apply r).firmware.family (t.reportFor r k) := by
  rw [apply_eq_report, extruderAt, extruderAt, List.getD_eq_getElem?_getD,
    List.getD_eq_getElem?_getD]
  change ((t.slots.mapIdx _)[k]?).getD _ = _
  rw [List.getElem?_mapIdx, List.getElem?_eq_getElem hk]
  rfl

end Tracker

end PrinterShadow
