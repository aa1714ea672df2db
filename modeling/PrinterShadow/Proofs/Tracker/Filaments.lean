import PrinterShadow.Proofs.Tracker.Slots

/-!
The filament records of all slots. An operation changes no record but that of the active extruder,
unless it starts over, which makes every record a new one.
-/

namespace PrinterShadow

/-- What an operation reports as the position of the active extruder's filament. -/
def Operation.reportedFilament? : Operation → Option Float
  | .receive line => Status.number? "E" (Status.tokens line)
  | _ => none

namespace Filament

def respond (m : Motion) (f : Filament) : Tracker.Response → Filament
  | .obey i => f.obey m i
  | _ => f

/-- The record after a report, which is taken for the logical position. -/
def report (reported : Option Float) (f : Filament) : Filament :=
  { f with position := reported.getD f.position }

/-- The record of the active extruder after an operation, given how the head moves and whether a
file is being uploaded. -/
def perform (m : Motion) (uploading : Bool) (op : Operation) (f : Filament) : Filament :=
  match op with
  | .send cmd => f.respond m (Tracker.response uploading cmd)
  | .receive line => f.report (Status.number? "E" (Status.tokens line))
  | .reset => {}
  | _ => f

end Filament

namespace Tracker

variable {c : Config} {t : Tracker}

def filaments (t : Tracker) : List Filament := t.slots.map Extruder.filament

theorem activeExtruder_filament (t : Tracker) :
    t.activeExtruder.filament = t.filaments.getD t.active {} :=
  filament_extruderAt t.active

theorem ActiveValid.filament_mem (h : t.ActiveValid) : t.activeExtruder.filament ∈ t.filaments := by
  rw [activeExtruder_eq h]
  exact List.mem_map_of_mem (List.get_mem _ _)

theorem filaments_start (minimum : Nat) : ∀ f ∈ (start c minimum).filaments, f = {} := by
  intro f hf
  obtain ⟨ex, hex, rfl⟩ := List.mem_map.mp hf
  obtain ⟨id, -, rfl⟩ := List.mem_map.mp hex
  rfl

theorem filaments_updateFilament_active (g : Filament → Filament) :
    (t.updateFilament fun _ => g t.activeExtruder.filament).filaments =
      t.filaments.modify t.active g := by
  rw [filaments, map_filament_updateFilament, activeExtruder_filament]
  apply List.ext_getElem?
  intro i
  simp only [List.getElem?_modify, filaments, List.getD_eq_getElem?_getD]
  -- an active index beyond the slots changes no record on either side
  split
  · subst i
    cases (t.slots.map Extruder.filament)[t.active]? <;> rfl
  · rfl

theorem filaments_obey (i : Instruction) :
    (t.obey c i).1.filaments = t.filaments.modify t.active (·.obey t.motion i) := by
  have hsame : t.filaments = t.filaments.modify t.active fun f => f := (List.modify_id _ _).symm
  cases i with
  | linearMove w =>
    exact filaments_updateFilament_active fun f =>
      (f.advance t.motion.movesFilamentRelatively w.e).settle
  | home w toUpper =>
    change (t.home c w toUpper).filaments = _
    rw [home_eq]
    exact map_filament_updateFilament _
  | setPosition w => exact map_filament_updateFilament _
  | heat tool target => exact (map_filament_updateHeater _ _).trans hsame
  | _ => exact hsame

theorem filaments_respond (r : Response) :
    (t.respond c r).1.filaments = t.filaments.modify t.active (·.respond t.motion r) := by
  cases r with
  | obey i => exact filaments_obey i
  | _ => exact (List.modify_id _ _).symm

theorem filaments_apply (r : Status.Report) :
    (t.apply r).filaments = t.filaments.modify t.active (·.report r.filament) := by
  obtain ⟨slots, seen, hfilaments, heq⟩ := apply_eq (t := t) r
  rw [heq]
  refine hfilaments.trans ?_
  unfold applyFilament
  cases r.filament with
  | none => exact (List.modify_id _ _).symm
  | some e => exact map_filament_updateFilament _

theorem filaments_perform {op : Operation} (hreset : op ≠ .reset) :
    (t.perform c op).1.filaments =
      t.filaments.modify t.active (·.perform t.motion t.uploading op) := by
  cases op with
  | send cmd =>
    change (t.send c cmd).1.filaments = _
    rw [send_eq, filaments_respond, filaments, slots_noteLine, active_noteLine, motion_noteLine]
    rfl
  | receive line => exact filaments_apply _
  | reset => exact absurd rfl hreset
  | _ => exact (List.modify_id _ _).symm

/-- A record after an operation was there before, or is what the operation made of the record of the
active extruder. -/
theorem mem_filaments_perform {op : Operation} {f : Filament}
    (h : f ∈ (t.perform c op).1.filaments) :
    f ∈ t.filaments ∨ f = t.activeExtruder.filament.perform t.motion t.uploading op := by
  by_cases hreset : op = .reset
  · subst hreset
    obtain ⟨ex, hex, rfl⟩ := List.mem_map.mp h
    obtain ⟨ex', -, rfl⟩ := List.mem_map.mp hex
    exact .inr rfl
  · rw [filaments_perform hreset] at h
    obtain ⟨i, hi⟩ := List.mem_iff_getElem?.mp h
    rw [List.getElem?_modify] at hi
    obtain ⟨g, hg, rfl⟩ := Option.map_eq_some_iff.mp hi
    split
    · subst i
      refine .inr ?_
      rw [activeExtruder_filament, List.getD_eq_getElem?_getD, hg]
      rfl
    · exact .inl (List.mem_of_getElem? hg)

/-- What each step of a run keeps of the record of the active extruder, the run keeps of all. -/
theorem forall_filaments_run {P : Tracker → Operation → Prop} {I : Filament → Prop} {minimum : Nat}
    {ops : List Operation} (h : Along c P ops (start c minimum)) (hdefault : I {})
    (hstep : ∀ t op, P t op → I t.activeExtruder.filament →
      t.activeExtruder.filament.perform t.motion t.uploading op ∈ (t.perform c op).1.filaments →
      I (t.activeExtruder.filament.perform t.motion t.uploading op)) :
    ∀ f ∈ (run c ops (start c minimum)).filaments, I f := by
  refine (h.invariant (I := fun t => t.ActiveValid ∧ ∀ f ∈ t.filaments, I f)
    (fun t op hop ht => ⟨ht.1.perform op, fun f hf => ?_⟩)
    ⟨activeValid_start c minimum, fun f hf => ?_⟩).2
  · rcases mem_filaments_perform hf with hold | rfl
    · exact ht.2 f hold
    · exact hstep t op hop (ht.2 _ ht.1.filament_mem) hf
  · rw [filaments_start minimum f hf]
    exact hdefault

/-- The record of the active extruder after an operation that neither selects a tool nor starts
over. -/
theorem filament_perform (h : t.ActiveValid) (op : Operation) (hreset : op ≠ .reset)
    (hactive : (t.perform c op).1.active = t.active) :
    (t.perform c op).1.activeExtruder.filament =
      t.activeExtruder.filament.perform t.motion t.uploading op := by
  have hlt : t.active < t.filaments.length := by
    rw [filaments, List.length_map]
    exact h
  rw [activeExtruder_filament, filaments_perform hreset, hactive, activeExtruder_filament]
  simp [List.getD_eq_getElem?_getD, List.getElem?_eq_getElem hlt]

end Tracker

end PrinterShadow
