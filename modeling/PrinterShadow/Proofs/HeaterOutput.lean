import PrinterShadow.Proofs.Double.Value
import PrinterShadow.Proofs.StatusLine
import PrinterShadow.Proofs.Tracker.History
import PrinterShadow.Proofs.Tracker.Records

/-!
The family of the firmware and the scale of heater outputs. The family is that of the name that the
firmware reported last since the tracker started over, and holds for the outputs of the very line
that has the name. An output is stored from the number of a token: its whole part, and twice that of
Marlin, each kept within the integers of 32 bits.
-/

namespace PrinterShadow

open Double Status

namespace Firmware

theorem occursIn_iff {part text : List Char} : occursIn part text ↔ part <:+: text := by
  induction text with
  | nil => simp [occursIn]
  | cons a text ih =>
    rw [occursIn, Bool.or_eq_true, List.isPrefixOf_iff_prefix, ih, List.infix_cons_iff]

namespace Family

/-- The family of a firmware by the name that it reported, if it did. -/
def ofName? : Option String → Family
  | none => .unknown
  | some name =>
    if "Marlin".toList <:+: name.toList then .marlin
    else if "Repetier".toList <:+: name.toList then .repetier
    else .unknown

theorem classify_eq (name : String) : classify name = ofName? (some name) := by
  have hnamed : ofName? (some name) =
      if "Marlin".toList <:+: name.toList then .marlin
      else if "Repetier".toList <:+: name.toList then .repetier
      else .unknown := rfl
  rw [classify, profiles, List.find?_cons, List.find?_cons, hnamed]
  simp only [← occursIn_iff]
  cases occursIn "Marlin".toList name.toList <;> cases occursIn "Repetier".toList name.toList <;> rfl

example : classify "Repetier_0.92 for Marlin boards" = .marlin := by decide

/-- Marlin reports heater output up to half of the common scale. -/
def scale (f : Family) : Int := if f = .marlin then 2 else 1

theorem toInt_normalizeOutput (f : Family) (reported : Int32) :
    (f.normalizeOutput reported).toInt = saturate (reported.toInt * f.scale) := by
  rw [normalizeOutput, toInt_ofIntClamp]
  cases f <;> rfl

end Family

end Firmware

/-- The name that a line reports for the firmware. -/
def Operation.reportedName? : Operation → Option String
  | .receive line => value? "FIRMWARE_NAME" (tokens line)
  | _ => none

namespace Tracker

variable {c : Config} {t : Tracker} {k : Nat}

theorem firmware_send (cmd : Command) : (t.send c cmd).1.firmware = t.firmware := by
  have hnoted : (t.noteLine cmd).firmware = t.firmware := by
    obtain ⟨lastLine, heq⟩ := noteLine_eq (t := t) cmd
    rw [heq]
  rw [send_eq, ← hnoted]
  cases response t.uploading cmd with
  | obey i =>
    cases i with
    | home w toUpper =>
      change ((t.noteLine cmd).home c w toUpper).firmware = _
      rw [home_eq]
      rfl
    | _ => rfl
  | _ => rfl

/-- Only a name that is reported changes the family, unless the tracker starts over. -/
theorem family_perform {op : Operation} (hop : op ≠ .reset) :
    (t.perform c op).1.firmware.family =
      (op.reportedName?.map fun name => .ofName? (some name)).getD t.firmware.family := by
  cases op with
  | send cmd => exact congrArg Firmware.Identity.family (firmware_send cmd)
  | receive line =>
    change (t.apply (Report.ofTokens (tokens line))).firmware.family = _
    rw [firmware_apply]
    simp only [Operation.reportedName?, Report.ofTokens, Introduction.ofTokens?]
    cases value? "FIRMWARE_NAME" (tokens line) with
    | none => rfl
    | some name => exact Firmware.Family.classify_eq name
  | reset => exact absurd rfl hop
  | _ => rfl

/-- The output of the heater in each slot, on the common scale. -/
def outputs (t : Tracker) : List Int32 := t.slots.map (·.heater.output)

theorem length_outputs : t.outputs.length = t.slots.length := List.length_map _

theorem output_extruderAt (k : Nat) : (t.extruderAt k).heater.output = t.outputs.getD k 0 := by
  rw [extruderAt, outputs, List.getD_eq_getElem?_getD, List.getD_eq_getElem?_getD,
    List.getElem?_map]
  cases t.slots[k]? <;> rfl

theorem outputs_updateFilament (f : Filament → Filament) :
    (t.updateFilament f).outputs = t.outputs :=
  map_modify_of_eq (fun _ => by rfl) t.active t.slots

theorem outputs_updateTarget (slot : Nat) (target : Heater → Float) :
    (t.updateHeater slot fun h => { h with target := target h }).outputs = t.outputs :=
  map_modify_of_eq (fun _ => by rfl) slot t.slots

theorem outputs_send (cmd : Command) : (t.send c cmd).1.outputs = t.outputs := by
  obtain ⟨f, hslots⟩ | ⟨tool, target, -, hslots⟩ := slots_send_cases (c := c) (t := t) cmd
  · rw [outputs, hslots]
    exact outputs_updateFilament f
  · rw [outputs, hslots]
    exact outputs_updateTarget _ _

theorem outputs_reset : t.reset.outputs = t.outputs := List.map_map ..

/-! ## Outputs of a line -/

/-- The output that a report has for a slot: that of the active extruder for its slot, if there is a
temperature beside it, else the last of those by number that select the slot. -/
def reportedOutput? (t : Tracker) (r : Report) (k : Nat) : Option Int32 :=
  (if k = t.active ∧ r.current.temperature.isSome then r.current.output else none).or
    (r.extruders.zipIdx.reverse.findSome? fun x => if t.resolve x.2 = k then x.1.output else none)

theorem output_reportFor (r : Report) (k : Nat) :
    (t.reportFor r k).reading.output = t.reportedOutput? r k := by
  have hactive : (if k = t.active then r.activeReading else ⟨none, none⟩ : Reading).output =
      if k = t.active ∧ r.current.temperature.isSome then r.current.output else none := by
    rw [Report.activeReading, ← ite_and]
    exact apply_ite Reading.output _ _ _
  rw [reportedOutput?, ← hactive]
  rfl

/-- The number of which a line stores the output of a slot: that of the bare token for the active
slot, if the line has a temperature of it, else the last of those by number that select the slot. -/
def storedNumber? (t : Tracker) (line : String) (k : Nat) : Option Float :=
  let ts := tokens line
  (if k = t.active ∧ (number? "T" ts).isSome then number? "@" ts else none).or
    ((extruderNumbers ts).reverse.findSome? fun (n : Nat) =>
      if t.resolve n = k then number? (outputKey n) ts else none)

theorem zipIdx_extruders (ts : List Token) :
    (Report.ofTokens ts).extruders.zipIdx =
      (extruderNumbers ts).map fun n =>
        (⟨number? (temperatureKey n) ts, integer? (outputKey n) ts⟩, n) := by
  obtain ⟨k, -, hmissing, hbelow⟩ := exists_firstMissing ts
  simp only [Report.ofTokens, extruderNumbers_eq hmissing hbelow]
  refine List.ext_getElem (by simp) fun i hi hi' => ?_
  simp

theorem reportedOutput?_ofTokens (line : String) (k : Nat) :
    t.reportedOutput? (Report.ofTokens (tokens line)) k =
      (t.storedNumber? line k).map wholePart := by
  rw [reportedOutput?, zipIdx_extruders, ← List.map_reverse, List.findSome?_map, storedNumber?,
    Option.map_or, List.map_findSome?]
  congr 1
  · rw [apply_ite (Option.map wholePart)]
    rfl
  · congr 1
    funext n
    simp only [Function.comp_apply, integer?]
    split_ifs <;> rfl

/-- No output is stored where there is no slot. -/
theorem storedNumber?_of_le (ht : t.ActiveValid) {k : Nat} (hk : t.slots.length ≤ k)
    (line : String) : t.storedNumber? line k = none := by
  have hactive : k ≠ t.active := fun heq => absurd ht (Nat.not_lt.mpr (heq ▸ hk))
  have hnumber (n : Nat) : t.resolve n ≠ k := fun heq =>
    absurd (resolveSlot_lt ht) (Nat.not_lt.mpr (heq ▸ hk : t.slots.length ≤ t.resolve n))
  simp [storedNumber?, hactive, hnumber]

/-- Each output that a line stores is on the scale of the family that holds after the line. -/
theorem getD_outputs_receive (ht : t.ActiveValid) (line : String) (k : Nat) :
    (t.receive line).1.outputs.getD k 0 =
      ((t.storedNumber? line k).map fun x =>
        (t.receive line).1.firmware.family.normalizeOutput (wholePart x)).getD
          (t.outputs.getD k 0) := by
  by_cases hk : k < t.slots.length
  · have hextruder := extruderAt_apply hk (Report.ofTokens (tokens line))
    have houtput := congrArg (fun ex : Extruder => ex.heater.output) hextruder
    rw [← output_extruderAt, ← output_extruderAt]
    refine houtput.trans ?_
    change ((t.reportFor _ k).reading.output.map _).getD _ = _
    rw [output_reportFor, reportedOutput?_ofTokens, Option.map_map]
    rfl
  · have hle := Nat.not_lt.mp hk
    have hbeyond (u : Tracker) (hu : u.slots.length = t.slots.length) : u.outputs.getD k 0 = 0 := by
      rw [List.getD_eq_default]
      rwa [length_outputs, hu]
    rw [storedNumber?_of_le ht hle, hbeyond t rfl]
    exact hbeyond (t.receive line).1 (length_slots_apply _)

theorem outputs_perform {op : Operation} (hop : ∀ line, op ≠ .receive line) :
    (t.perform c op).1.outputs = t.outputs := by
  cases op with
  | send cmd => exact outputs_send cmd
  | receive line => exact absurd rfl (hop line)
  | reset => exact outputs_reset
  | _ => rfl

end Tracker

/-- The number of which a step stores the output of a slot. Only lines store any. -/
def Step.storedNumber? (s : Step) (k : Nat) : Option Float :=
  match s.op with
  | .receive line => s.before.storedNumber? line k
  | _ => none

/-- The heater output of the extruder in a slot, after a step. -/
theorem Step.output_after {c : Config} {s : Step} (hs : s.before.ActiveValid) (k : Nat) :
    ((s.after c).extruderAt k).heater.output.toInt =
      match s.storedNumber? k with
      | none => (s.before.extruderAt k).heater.output.toInt
      | some x => saturate (truncated x * (s.after c).firmware.family.scale) := by
  obtain ⟨t, op⟩ := s
  rw [Tracker.output_extruderAt, Tracker.output_extruderAt, after]
  by_cases hop : ∃ line, op = .receive line
  · obtain ⟨line, rfl⟩ := hop
    change ((t.receive line).1.outputs.getD k 0).toInt =
      match t.storedNumber? line k with
      | none => (t.outputs.getD k 0).toInt
      | some x => saturate (truncated x * (t.receive line).1.firmware.family.scale)
    rw [Tracker.getD_outputs_receive hs]
    cases t.storedNumber? line k with
    | none => rfl
    | some x =>
      change ((t.receive line).1.firmware.family.normalizeOutput (wholePart x)).toInt = _
      rw [Firmware.Family.toInt_normalizeOutput, toInt_wholePart]
  · rw [not_exists] at hop
    have hnone : (Step.mk t op).storedNumber? k = none := by
      unfold storedNumber?
      split
      · exact absurd ‹_› (hop _)
      · rfl
    rw [hnone, Tracker.outputs_perform hop]

namespace Tracker

variable {c : Config} {t : Tracker}

theorem family_run (minimum : Nat) (ops : List Operation) :
    (run c ops (start c minimum)).firmware.family =
      .ofName? ((sinceReset c ops (start c minimum)).findSome? (·.op.reportedName?)) :=
  sinceReset_latest (·.firmware.family) .ofName? rfl (fun _ => rfl)
    (fun _ hop => family_perform hop) ops

/-- The family after every run is that of the name reported last since it started over. What a line
stores as the output of a slot is the number of a token, its whole part saturated, on the scale of
the family that holds after that line, saturated again; no other operation changes an output. -/
theorem family_and_outputs (c : Config) (minimum : Nat) (ops : List Operation) :
    (run c ops (start c minimum)).firmware.family =
        .ofName? ((sinceReset c ops (start c minimum)).findSome? (·.op.reportedName?)) ∧
      ∀ op k, (((run c ops (start c minimum)).perform c op).1.extruderAt k).heater.output.toInt =
        match (Step.mk (run c ops (start c minimum)) op).storedNumber? k with
        | none => ((run c ops (start c minimum)).extruderAt k).heater.output.toInt
        | some x =>
          saturate (truncated x *
            ((run c ops (start c minimum)).perform c op).1.firmware.family.scale) := by
  have hvalid := (activeValid_start c minimum).run (c := c) ops
  exact ⟨family_run minimum ops, fun op k =>
    Step.output_after (s := ⟨run c ops (start c minimum), op⟩) hvalid k⟩

end Tracker

end PrinterShadow
