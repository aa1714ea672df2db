import PrinterShadow.Proofs.Tracker.Motion

/-!
The slots of a tracker. No operation changes how many there are, and the active one is always among
them, so changes to the record of the active extruder are not lost.
-/

namespace PrinterShadow

namespace Tracker

variable {c : Config} {t : Tracker}

theorem slots_noteLine (cmd : Command) : (t.noteLine cmd).slots = t.slots := by
  obtain ⟨lastLine, heq⟩ := noteLine_eq (t := t) cmd
  rw [heq]

theorem active_noteLine (cmd : Command) : (t.noteLine cmd).active = t.active := by
  obtain ⟨lastLine, heq⟩ := noteLine_eq (t := t) cmd
  rw [heq]

/-- What a command does to the slots. -/
theorem slots_send_cases (cmd : Command) :
    (∃ f, (t.send c cmd).1.slots = (t.updateFilament f).slots) ∨
      ∃ tool target, response t.uploading cmd = .obey (.heat tool target) ∧
        (t.send c cmd).1.slots =
          (t.updateHeater (t.resolve ((tool.map Int32.toInt).getD (-1))) fun h =>
            { h with target := target.getD h.target }).slots := by
  obtain ⟨lastLine, heq⟩ := noteLine_eq (t := t) cmd
  rw [send_eq, heq]
  exact slots_respond_cases _

theorem length_slots_respond (r : Response) :
    (t.respond c r).1.slots.length = t.slots.length := by
  obtain ⟨f, hslots⟩ | ⟨tool, target, -, hslots⟩ := slots_respond_cases (c := c) (t := t) r
  · rw [hslots, length_slots_updateFilament]
  · rw [hslots, length_slots_updateHeater]

theorem length_slots_apply (r : Status.Report) : (t.apply r).slots.length = t.slots.length := by
  have hfilament : (t.applyFilament r).slots.length = t.slots.length := by
    unfold applyFilament
    split
    · rfl
    · exact length_slots_updateFilament _ _
  obtain ⟨slots, seen, hfilaments, heq⟩ := apply_eq (t := t) r
  have hlength := congrArg List.length hfilaments
  rw [List.length_map, List.length_map, hfilament] at hlength
  rw [heq]
  exact hlength

theorem length_slots_perform (op : Operation) :
    (t.perform c op).1.slots.length = t.slots.length := by
  cases op with
  | send cmd =>
    change (t.send c cmd).1.slots.length = _
    rw [send_eq, length_slots_respond, slots_noteLine]
  | receive line => exact length_slots_apply _
  | reset => exact List.length_map _
  | _ => rfl

theorem active_respond (r : Response) :
    (t.respond c r).1.active =
      match r with
      | .obey (.selectTool tool) => t.resolve tool.toInt
      | _ => t.active := by
  cases r with
  | obey i =>
    cases i with
    | home w toUpper =>
      change (t.home c w toUpper).active = _
      rw [home_eq]
      rfl
    | _ => rfl
  | _ => rfl

theorem active_apply (r : Status.Report) : (t.apply r).active = t.active := by
  obtain ⟨slots, seen, -, heq⟩ := apply_eq (t := t) r
  rw [heq]
  rfl

def ActiveValid (t : Tracker) : Prop := t.active < t.slots.length

theorem ActiveValid.perform (h : t.ActiveValid) (op : Operation) :
    (t.perform c op).1.ActiveValid := by
  unfold ActiveValid at h ⊢
  rw [length_slots_perform]
  cases op with
  | send cmd =>
    change (t.send c cmd).1.active < _
    rw [send_eq, active_respond]
    split
    · unfold resolve
      rw [active_noteLine, slots_noteLine]
      exact resolveSlot_lt h
    · rw [active_noteLine]
      exact h
  | receive line =>
    change (t.apply _).active < _
    rwa [active_apply]
  | reset => exact Nat.zero_lt_of_lt h
  | _ => exact h

theorem ActiveValid.run (h : t.ActiveValid) (ops : List Operation) : (t.run c ops).ActiveValid :=
  run_invariant (fun op _ _ h => h.perform op) h

theorem activeValid_start (c : Config) (minimum : Nat) : (start c minimum).ActiveValid := by
  simp only [ActiveValid, start, fresh, slotCount, List.length_map, List.length_range]
  omega

theorem activeExtruder_eq (h : t.ActiveValid) : t.activeExtruder = t.slots.get ⟨t.active, h⟩ := by
  rw [activeExtruder, extruderAt, List.getD_eq_getElem?_getD, List.getElem?_eq_getElem h]
  rfl

theorem filament_extruderAt (slot : Nat) :
    (t.extruderAt slot).filament = (t.slots.map Extruder.filament).getD slot {} := by
  rw [extruderAt, List.getD_eq_getElem?_getD, List.getD_eq_getElem?_getD, List.getElem?_map]
  cases t.slots[slot]? <;> rfl

theorem filament_updateHeater (slot : Nat) (f : Heater → Heater) (k : Nat) :
    ((t.updateHeater slot f).extruderAt k).filament = (t.extruderAt k).filament := by
  rw [filament_extruderAt, filament_extruderAt, map_filament_updateHeater]

/-- A change to the filament of the active extruder is there afterwards. -/
theorem filament_updateFilament (h : t.ActiveValid) (f : Filament → Filament) :
    (t.updateFilament f).activeExtruder.filament = f t.activeExtruder.filament := by
  have h' : (t.updateFilament f).ActiveValid := by
    rwa [ActiveValid, length_slots_updateFilament]
  rw [activeExtruder_eq h, activeExtruder_eq h']
  simp [updateFilament]

end Tracker

/-- The filament record of the active extruder after an instruction that selects no tool. -/
def Filament.obey (m : Motion) (f : Filament) : Instruction → Filament
  | .linearMove w => (f.advance m.movesFilamentRelatively w.e).settle
  | .home w toUpper => if !toUpper && w.e.isSome then f.home else f
  | .setPosition w => f.setPosition w.e
  | _ => f

namespace Tracker

variable {c : Config} {t : Tracker}

theorem filament_obey (h : t.ActiveValid) {i : Instruction} (hi : ∀ tool, i ≠ .selectTool tool) :
    (t.obey c i).1.activeExtruder.filament = t.activeExtruder.filament.obey t.motion i := by
  cases i with
  | linearMove w =>
    exact filament_updateFilament h fun _ =>
      (t.activeExtruder.filament.advance t.motion.movesFilamentRelatively w.e).settle
  | home w toUpper =>
    change (t.home c w toUpper).activeExtruder.filament = _
    rw [home_eq]
    exact filament_updateFilament (t := { t with motion := t.motion.home c w toUpper }) h _
  | setPosition w =>
    exact filament_updateFilament (t := { t with motion := t.motion.setPosition w }) h _
  | heat tool target => exact filament_updateHeater _ _ _
  | selectTool tool => exact absurd rfl (hi tool)
  | _ => rfl

end Tracker

end PrinterShadow
