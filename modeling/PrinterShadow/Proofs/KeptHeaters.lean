import PrinterShadow.Proofs.Reset

/-!
What starting over leaves of the time before: the heater of every extruder, the identity of the
firmware but for its family, and whether a temperature was seen. So the tracker starts from the
defaults where nothing was said of the heaters, and otherwise in all but them.
-/

namespace PrinterShadow

/-- Whether a report says nothing of the heaters of extruders. -/
def Status.Report.LeavesHeaters (r : Status.Report) : Prop :=
  r.extruders = [] ∧ r.current.temperature = none ∧ ∀ target ∈ r.extruderTargets, target = none

instance (r : Status.Report) : Decidable r.LeavesHeaters := inferInstanceAs (Decidable (_ ∧ _))

/-- Whether an instruction sets no target of an extruder. -/
def Instruction.LeavesHeaters : Instruction → Prop
  | .heat _ target => target = none
  | _ => True

/-- Whether an operation says nothing of the heaters of extruders. -/
def Operation.LeavesHeaters : Operation → Prop
  | .send cmd => cmd.instruction.LeavesHeaters
  | .receive line => (Status.Report.ofTokens (Status.tokens line)).LeavesHeaters
  | _ => True

namespace Tracker

variable {c : Config} {t : Tracker}

def heaters (t : Tracker) : List Heater := t.slots.map Extruder.heater

theorem heaters_updateFilament (f : Filament → Filament) :
    (t.updateFilament f).heaters = t.heaters :=
  map_modify_of_eq (fun _ => by rfl) t.active t.slots

theorem heaters_updateTarget_none (slot : Nat) :
    (t.updateHeater slot fun h =>
      { h with target := (none : Option Float).getD h.target }).heaters = t.heaters :=
  map_modify_of_eq (fun _ => by rfl) slot t.slots

theorem heaters_applyTargets {r : Status.Report}
    (h : ∀ target ∈ r.extruderTargets, target = none) : (t.applyTargets r).heaters = t.heaters := by
  have hfold {targets : List (Option Float)} (h : ∀ target ∈ targets, target = none)
      (t : Tracker) :
      (targets.foldl (fun t target => t.updateHeater 0 fun heater =>
        { heater with target := target.getD heater.target }) t).heaters = t.heaters := by
    induction targets generalizing t with
    | nil => rfl
    | cons target targets ih =>
      obtain ⟨rfl, htargets⟩ := List.forall_mem_cons.mp h
      exact (ih htargets _).trans (heaters_updateTarget_none 0)
  exact hfold h t

theorem heaters_apply {r : Status.Report} (h : r.LeavesHeaters) :
    (t.apply r).heaters = t.heaters := by
  obtain ⟨hextruders, hcurrent, htargets⟩ := h
  have hfilament (t : Tracker) : (t.applyFilament r).heaters = t.heaters := by
    unfold applyFilament
    cases r.filament with
    | none => rfl
    | some e => exact heaters_updateFilament _
  have hnamed (t : Tracker) : (t.applyExtruders r).applyCurrent r = t := by
    rw [applyExtruders, hextruders, applyCurrent, hcurrent]
    rfl
  change ((((((t.applyIntroduction r).applyPosition r).applyFilament r).applyExtruders r
    |>.applyCurrent r).applyTargets r)).heaters = _
  rw [heaters_applyTargets htargets, hnamed, hfilament]
  rfl

theorem heaters_perform {op : Operation} (h : op.LeavesHeaters) :
    (t.perform c op).1.heaters = t.heaters := by
  cases op with
  | send cmd =>
    obtain ⟨f, hslots⟩ | ⟨tool, target, hresponse, hslots⟩ :=
      slots_send_cases (c := c) (t := t) cmd
    · exact (congrArg (List.map Extruder.heater) hslots).trans (heaters_updateFilament f)
    · have hinstruction := eq_instruction_of_response hresponse
      have hleaves : cmd.instruction.LeavesHeaters := h
      rw [← hinstruction] at hleaves
      obtain rfl : target = none := hleaves
      exact (congrArg (List.map Extruder.heater) hslots).trans (heaters_updateTarget_none _)
  | receive line => exact heaters_apply h
  | reset => exact List.map_map ..
  | _ => rfl

theorem heaters_start (minimum : Nat) : ∀ h ∈ (start c minimum).heaters, h = {} := by
  intro h hh
  obtain ⟨ex, hex, rfl⟩ := List.mem_map.mp hh
  obtain ⟨id, -, rfl⟩ := List.mem_map.mp hex
  rfl

theorem heaters_run {ops : List Operation} (h : ∀ op ∈ ops, op.LeavesHeaters) :
    (run c ops t).heaters = t.heaters :=
  run_invariant (I := fun u => u.heaters = t.heaters)
    (fun op hop _ hheaters => (heaters_perform (h op hop)).trans hheaters) rfl

/-! ## After starting over -/

theorem Slotted.extruderAt_id {minimum : Nat} (h : t.Slotted c minimum) {ex : Extruder}
    (hex : ex ∈ t.slots) : t.extruderAt ex.id = ex := by
  obtain ⟨i, hi, rfl⟩ := List.mem_iff_getElem.mp hex
  have hextruder := getElem?_eq_extruderAt hi
  rw [List.getElem?_eq_getElem hi, Option.some.injEq] at hextruder
  rw [h.id i hi, ← hextruder]

theorem slots_start_eq (minimum : Nat) (ops : List Operation) :
    (start c minimum).slots =
      (run c ops (start c minimum)).slots.map fun ex => { id := ex.id } := by
  have hids := congrArg (List.map fun id => ({ id } : Extruder))
    (map_id_run (c := c) (t := start c minimum) ops)
  simp only [List.map_map, Function.comp_def] at hids
  rw [hids]
  simp [start, fresh, Function.comp_def]

/-- After starting over a tracker is as at the start but for what is kept: the heater of every
extruder, the identity of the firmware without its family, and whether a temperature was seen. The
extruders are as at the start just where all heaters were as at the start, and so after operations
that say nothing of them. -/
theorem run_reset_eq (c : Config) (minimum : Nat) (ops : List Operation) :
    run c (ops ++ [.reset]) (start c minimum) =
        { start c minimum with
          slots := (start c minimum).slots.map fun ex =>
            { ex with heater := ((run c ops (start c minimum)).extruderAt ex.id).heater }
          firmware := { (run c ops (start c minimum)).firmware with family := .unknown }
          temperatureSeen := (run c ops (start c minimum)).temperatureSeen } ∧
      ((run c (ops ++ [.reset]) (start c minimum)).slots = (start c minimum).slots ↔
        ∀ ex ∈ (run c ops (start c minimum)).slots, ex.heater = {}) ∧
      ((∀ op ∈ ops, op.LeavesHeaters) →
        (run c (ops ++ [.reset]) (start c minimum)).slots = (start c minimum).slots) := by
  have hslotted : (run c ops (start c minimum)).Slotted c minimum := slotted_run ops
  have hreset : run c (ops ++ [.reset]) (start c minimum) = (run c ops (start c minimum)).reset :=
    run_append ..
  have hkept : (run c ops (start c minimum)).reset.slots =
      (start c minimum).slots.map fun ex =>
        { ex with heater := ((run c ops (start c minimum)).extruderAt ex.id).heater } := by
    rw [slots_start_eq minimum ops, List.map_map]
    refine List.map_congr_left fun ex hex => ?_
    rw [Function.comp_apply, hslotted.extruderAt_id hex]
  have hfresh : (run c ops (start c minimum)).reset.slots = (start c minimum).slots ↔
      ∀ ex ∈ (run c ops (start c minimum)).slots, ex.heater = {} := by
    rw [slots_start_eq minimum ops]
    refine List.map_inj_left.trans (forall₂_congr fun ex _ => ?_)
    simp
  rw [hreset]
  refine ⟨?_, hfresh, fun hops => hfresh.mpr fun ex hex => ?_⟩
  · rw [← hkept]
    rfl
  · refine heaters_start (c := c) minimum ex.heater ?_
    rw [← heaters_run hops]
    exact List.mem_map_of_mem hex

/-- A print that heats the bed alone. -/
def coldPrint : List Operation :=
  [.send { m := some 140, words.s := some 60 }, .receive "ok B:58.5 /60",
    .send { m := some 104, tool := some 1 },
    .send { g := some 1, words := { xyz := ⟨none, none, some 1⟩, e := some 2 } }]

theorem slots_after_coldPrint :
    (run {} (coldPrint ++ [.reset]) (start {} 0)).slots = (start {} 0).slots := by
  obtain ⟨-, -, hcold⟩ := run_reset_eq {} 0 coldPrint
  have hreport : (Status.Report.ofTokens (Status.tokens "ok B:58.5 /60")).LeavesHeaters := by
    decide +kernel
  refine hcold ?_
  simp only [coldPrint, List.forall_mem_cons]
  exact ⟨trivial, hreport, rfl, trivial, List.forall_mem_nil _⟩

/-- The target of an extruder outlasts starting over. -/
theorem target_after_startingOver :
    ((run {} [.send { m := some 104, words.s := some 200 }, .reset] (start {} 0)).extruderAt
        0).heater.target = 200 ∧
      ((start {} 0).extruderAt 0).heater.target = 0 := by
  decide

end Tracker

end PrinterShadow
