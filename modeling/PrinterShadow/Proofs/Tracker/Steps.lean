import PrinterShadow.Proofs.Tracker.Run

/-!
What one step can change. A command is followed by a response that depends on the command and on
whether a file is being uploaded; a line of the firmware changes a fixed set of fields, and of the
slots only what is said of heaters and the position of the active extruder's filament.
-/

namespace PrinterShadow

/-- A change to one element of a list, seen through what is read of the elements. -/
theorem map_modify {α β : Type} {f : α → α} {g : α → β} {f' : β → β}
    (h : ∀ x, g (f x) = f' (g x)) (i : Nat) (xs : List α) :
    (xs.modify i f).map g = (xs.map g).modify i f' := by
  induction xs generalizing i with
  | nil => simp
  | cons x xs ih =>
    cases i with
    | zero => simp [h]
    | succ i => simp [ih]

theorem map_modify_of_eq {α β : Type} {f : α → α} {g : α → β} (h : ∀ x, g (f x) = g x) (i : Nat)
    (xs : List α) : (xs.modify i f).map g = xs.map g := by
  have hid (x : α) : g (f x) = id (g x) := h x
  rw [map_modify hid, List.modify_id]

namespace Tracker

variable {c : Config} {t : Tracker}

theorem eq_instruction_of_response {uploading : Bool} {cmd : Command} {i : Instruction}
    (h : response uploading cmd = .obey i) : i = cmd.instruction := by
  unfold response at h
  split at h
  · split at h <;> nomatch h
  · split at h
    · nomatch h
    · injection h with h
      exact h.symm

def respond (c : Config) (t : Tracker) : Response → Tracker × Option Move
  | .confirmHome => (t.confirmHome c, none)
  | .ignore _ => (t, none)
  | .gate => (t, none)
  | .obey instruction => t.obey c instruction

theorem noteLine_eq (cmd : Command) : ∃ lastLine, t.noteLine cmd = { t with lastLine } := by
  unfold noteLine
  split
  · exact ⟨t.lastLine, rfl⟩
  · exact ⟨_, rfl⟩

theorem noteLine_of_lineNumber {cmd : Command} (h : cmd.lineNumber = none) : t.noteLine cmd = t := by
  unfold noteLine
  rw [h]
  split <;> rfl

/-- Whether a number is noted does not matter to the response. -/
theorem send_eq (cmd : Command) :
    t.send c cmd = (t.noteLine cmd).respond c (response t.uploading cmd) := by
  have huploading : (t.noteLine cmd).uploading = t.uploading := by
    obtain ⟨lastLine, heq⟩ := noteLine_eq (t := t) cmd
    rw [heq]
  unfold send
  dsimp only
  rw [huploading]
  cases response t.uploading cmd <;> rfl

/-- A command without a line number is just followed while no file is being uploaded. -/
theorem send_of_not_uploading {cmd : Command} (hup : t.uploading = false)
    (hdirective : cmd.directive = none) (hnumber : cmd.lineNumber = none) :
    t.send c cmd = t.obey c cmd.instruction := by
  have hresponse : response t.uploading cmd = .obey cmd.instruction := by
    simp [response, hup, hdirective]
  rw [send_eq, noteLine_of_lineNumber hnumber, hresponse]
  rfl

theorem updateFilament_id : t.updateFilament (fun f => f) = t := by
  have hid : (fun ex : Extruder => { ex with filament := ex.filament }) = id := rfl
  rw [updateFilament, hid, List.modify_id]

theorem home_eq (w : Words) (toUpper : Bool) :
    t.home c w toUpper =
      { t with motion := t.motion.home c w toUpper }.updateFilament fun f =>
        if !toUpper && w.e.isSome then f.home else f := by
  unfold home
  dsimp only
  split
  · rfl
  · exact updateFilament_id.symm

/-- What a response does to the slots: it changes the filament of the active extruder, if anything,
or it sets the target of a heater. -/
theorem slots_respond_cases (r : Response) :
    (∃ f, (t.respond c r).1.slots = (t.updateFilament f).slots) ∨
      ∃ tool target, r = .obey (.heat tool target) ∧
        (t.respond c r).1.slots =
          (t.updateHeater (t.resolve ((tool.map Int32.toInt).getD (-1))) fun h =>
            { h with target := target.getD h.target }).slots := by
  have hkeep : t.slots = (t.updateFilament fun f => f).slots :=
    congrArg Tracker.slots updateFilament_id.symm
  cases r with
  | obey i =>
    cases i with
    | linearMove w =>
      exact .inl ⟨fun _ =>
        (t.activeExtruder.filament.advance t.motion.movesFilamentRelatively w.e).settle, rfl⟩
    | home w toUpper =>
      refine .inl ⟨fun f => if !toUpper && w.e.isSome then f.home else f, ?_⟩
      change (t.home c w toUpper).slots = _
      rw [home_eq]
      rfl
    | setPosition w => exact .inl ⟨_, rfl⟩
    | heat tool target => exact .inr ⟨tool, target, rfl, rfl⟩
    | _ => exact .inl ⟨_, hkeep⟩
  | _ => exact .inl ⟨_, hkeep⟩

theorem map_filament_updateHeater (slot : Nat) (f : Heater → Heater) :
    (t.updateHeater slot f).slots.map Extruder.filament = t.slots.map Extruder.filament :=
  map_modify_of_eq (fun _ => by rfl) slot t.slots

theorem map_filament_updateFilament (f : Filament → Filament) :
    (t.updateFilament f).slots.map Extruder.filament =
      (t.slots.map Extruder.filament).modify t.active f :=
  map_modify (fun _ => by rfl) t.active t.slots

/-- What no update of a heater changes, and no note that a temperature was seen, the readings of a
report leave alone. -/
theorem applyHeaters_of_invariant {α : Type} {g : Tracker → α}
    (hheater : ∀ t slot f, g (updateHeater t slot f) = g t)
    (hseen : ∀ t : Tracker, g { t with temperatureSeen := true } = g t) (r : Status.Report)
    (t : Tracker) : g (((t.applyExtruders r).applyCurrent r).applyTargets r) = g t := by
  have hfold {β : Type} (slot : Tracker → β → Nat) (f : Tracker → β → Heater → Heater)
      (xs : List β) (t : Tracker) :
      g (xs.foldl (fun t x => t.updateHeater (slot t x) (f t x)) t) = g t := by
    induction xs generalizing t with
    | nil => rfl
    | cons x xs ih => exact (ih _).trans (hheater _ _ _)
  have hcurrent (t : Tracker) : g (t.applyCurrent r) = g t := by
    unfold applyCurrent
    split
    · exact (hseen _).trans (hheater _ _ _)
    · rfl
  have hextruders := hfold (fun t (x : Status.Reading × Nat) => t.resolve x.2)
    (fun t x => Heater.update t.firmware.family x.1) r.extruders.zipIdx t
  have htargets := hfold (fun _ (_ : Option Float) => 0)
    (fun _ target h => { h with target := target.getD h.target }) r.extruderTargets
  exact (htargets _).trans ((hcurrent _).trans hextruders)

theorem applyHeaters_eq (r : Status.Report) :
    ∃ slots seen, slots.map Extruder.filament = t.slots.map Extruder.filament ∧
      ((t.applyExtruders r).applyCurrent r).applyTargets r =
        { t with slots, temperatureSeen := seen } := by
  have hfilaments := applyHeaters_of_invariant (g := fun t => t.slots.map Extruder.filament)
    (fun _ => map_filament_updateHeater) (fun _ => rfl) r t
  have hrest := applyHeaters_of_invariant
    (g := fun t => { t with slots := [], temperatureSeen := false }) (fun _ _ _ => rfl)
    (fun _ => rfl) r t
  generalize ((t.applyExtruders r).applyCurrent r).applyTargets r = u at hfilaments hrest ⊢
  exact ⟨u.slots, u.temperatureSeen, hfilaments, congrArg (fun v : Tracker =>
    { v with slots := u.slots, temperatureSeen := u.temperatureSeen }) hrest⟩

/-- What a report changes. -/
theorem apply_eq (r : Status.Report) :
    ∃ slots seen,
      slots.map Extruder.filament = (t.applyFilament r).slots.map Extruder.filament ∧
        t.apply r =
          { (t.applyIntroduction r).applyDevice r with
            slots
            temperatureSeen := seen
            motion := (t.applyPosition r).motion } := by
  have hfilament : ((t.applyIntroduction r).applyPosition r).applyFilament r =
      { (t.applyIntroduction r).applyPosition r with slots := (t.applyFilament r).slots } := by
    unfold applyFilament
    split <;> rfl
  obtain ⟨slots, seen, hfilaments, heq⟩ :=
    applyHeaters_eq (t := ((t.applyIntroduction r).applyPosition r).applyFilament r) r
  rw [hfilament] at hfilaments
  refine ⟨slots, seen, hfilaments, ?_⟩
  rw [apply, heq, hfilament]
  rfl

end Tracker

end PrinterShadow
