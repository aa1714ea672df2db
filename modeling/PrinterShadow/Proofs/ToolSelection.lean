import PrinterShadow.Proofs.Tracker.Checked
import PrinterShadow.Proofs.Tracker.History

/-!
The slots and the active extruder after a run. There are as many slots as at the start, each with
the extruder of its number, and the active one is among them, so whatever is looked up is there. The
active extruder is the one that was selected last, since the tracker last started over, by a command
that has nothing but a tool word to go by.
-/

namespace PrinterShadow

/-- Whether an operation selects no tool: it does not start over, and as a command it has a G word
or an M word, or no tool word but a negative one. -/
def Operation.LeavesTool : Operation → Prop
  | .reset => False
  | .send cmd => cmd.g ≠ none ∨ cmd.m ≠ none ∨ ∀ n ∈ cmd.tool, n < 0
  | _ => True

namespace Step

variable {c : Config} {s : Step} {t : Tracker} {cmd : Command}

/-- The tool that a step selects: it obeys a command without a G word and an M word, and with a tool
word that is not negative. -/
def tool? (s : Step) : Option Nat :=
  s.obeyed?.bind fun cmd =>
    if cmd.g = none ∧ cmd.m = none then (cmd.tool.filter (0 ≤ ·)).map Int32.toNatClampNeg else none

theorem tool?_eq_some_iff {n : Nat} : s.tool? = some n ↔
    ∃ cmd tool, s.op = .send cmd ∧
      Tracker.response s.before.uploading cmd = .obey (.selectTool tool) ∧ 0 ≤ tool ∧
        tool.toNatClampNeg = n := by
  simp only [tool?, Option.bind_eq_some_iff, Option.ite_none_right_eq_some,
    Option.map_eq_some_iff, Option.filter_eq_some_iff, obeyed?_eq_some_iff, decide_eq_true_eq]
  constructor
  · rintro ⟨cmd, ⟨hop, hresponse⟩, ⟨hg, hm⟩, tool, ⟨htool, hsign⟩, hn⟩
    rw [Command.instruction_eq_selectTool_iff.mpr ⟨hg, hm, htool⟩] at hresponse
    exact ⟨cmd, tool, hop, hresponse, hsign, hn⟩
  · rintro ⟨cmd, tool, hop, hresponse, hsign, hn⟩
    have hinstruction := Tracker.eq_instruction_of_response hresponse
    obtain ⟨hg, hm, htool⟩ := Command.instruction_eq_selectTool_iff.mp hinstruction.symm
    rw [hinstruction] at hresponse
    exact ⟨cmd, ⟨hop, hresponse⟩, ⟨hg, hm⟩, tool, ⟨htool, hsign⟩, hn⟩

end Step

namespace Tracker

variable {c : Config} {t : Tracker} {minimum : Nat}

/-! ## The numbers of the slots -/

theorem map_id_updateFilament (f : Filament → Filament) :
    (t.updateFilament f).slots.map Extruder.id = t.slots.map Extruder.id :=
  map_modify_of_eq (fun _ => by rfl) t.active t.slots

theorem map_id_updateHeater (slot : Nat) (f : Heater → Heater) :
    (t.updateHeater slot f).slots.map Extruder.id = t.slots.map Extruder.id :=
  map_modify_of_eq (fun _ => by rfl) slot t.slots

theorem map_id_apply (r : Status.Report) :
    (t.apply r).slots.map Extruder.id = t.slots.map Extruder.id := by
  have hfilament (t : Tracker) :
      (t.applyFilament r).slots.map Extruder.id = t.slots.map Extruder.id := by
    unfold applyFilament
    cases r.filament with
    | none => rfl
    | some e => exact map_id_updateFilament _
  have hheaters := applyHeaters_of_invariant (g := fun t => t.slots.map Extruder.id)
    (fun _ => map_id_updateHeater) (fun _ => rfl) r
  exact (hheaters _).trans (hfilament _)

theorem map_id_perform (op : Operation) :
    (t.perform c op).1.slots.map Extruder.id = t.slots.map Extruder.id := by
  cases op with
  | send cmd =>
    change (t.send c cmd).1.slots.map Extruder.id = _
    obtain ⟨f, hslots⟩ | ⟨tool, target, -, hslots⟩ := slots_send_cases (c := c) (t := t) cmd
    · rw [hslots, map_id_updateFilament]
    · rw [hslots, map_id_updateHeater]
  | receive line => exact map_id_apply _
  | reset => simp [perform, reset, Function.comp_def]
  | _ => rfl

/-- What every operation keeps: as many slots as at the start, in each the extruder of its number,
and the active extruder among them. -/
structure Slotted (c : Config) (minimum : Nat) (t : Tracker) : Prop where
  length : t.slots.length = max (max (c.extruderCount + 1) minimum) 1
  id : ∀ i (h : i < t.slots.length), t.slots[i].id = i
  active : t.active < t.slots.length

theorem Slotted.perform (h : t.Slotted c minimum) (op : Operation) :
    (t.perform c op).1.Slotted c minimum where
  length := (length_slots_perform op).trans h.length
  id i hi := by
    have hids := congrArg (·[i]?) (map_id_perform (c := c) (t := t) op)
    rw [length_slots_perform] at hi
    simpa [hi, length_slots_perform, h.id i hi] using hids
  active := ActiveValid.perform h.active op

theorem slotted_start (c : Config) (minimum : Nat) : (start c minimum).Slotted c minimum where
  length := by
    simp only [start, fresh, slotCount, List.length_map, List.length_range]
    omega
  id i hi := by simp [start, fresh]
  active := activeValid_start c minimum

theorem slotted_run (ops : List Operation) : (run c ops (start c minimum)).Slotted c minimum :=
  run_invariant (fun op _ _ h => h.perform op) (slotted_start c minimum)

/-! ## The active extruder -/

/-- The slot of the tool that was selected last in a history, or the first. -/
def selected (slots : Nat) (h : List Step) : Nat :=
  match h.findSome? Step.tool? with
  | some tool => if tool < slots then tool else 0
  | none => 0

theorem resolveSlot_of_nonneg {tool : Int32} (h : 0 ≤ tool) (active slots : Nat) :
    resolveSlot tool.toInt active slots =
      if tool.toNatClampNeg < slots then tool.toNatClampNeg else 0 := by
  have hnonneg : 0 ≤ tool.toInt := Int32.le_iff_toInt_le.mp h
  unfold resolveSlot
  rw [if_neg (Int.not_lt.mpr hnonneg)]
  change (if slots ≤ tool.toNatClampNeg then 0 else tool.toNatClampNeg) = _
  split <;> split <;> first | rfl | omega

/-- What one step does to the active extruder. -/
theorem active_perform {op : Operation} (hop : op ≠ .reset) :
    (t.perform c op).1.active =
      match (Step.mk t op).tool? with
      | some tool => if tool < t.slots.length then tool else 0
      | none => t.active := by
  cases htool : (Step.mk t op).tool? with
  | some n =>
    obtain ⟨cmd, tool, rfl, hresponse, hsign, rfl⟩ := Step.tool?_eq_some_iff.mp htool
    change (t.send c cmd).1.active = _
    rw [send_eq, active_respond, hresponse]
    dsimp only
    rw [resolve, active_noteLine, slots_noteLine, resolveSlot_of_nonneg hsign]
  | none =>
    cases op with
    | send cmd =>
      change (t.send c cmd).1.active = _
      rw [send_eq, active_respond]
      split
      case h_1 tool hresponse =>
        have hsign : tool < 0 := Int32.not_le.mp fun h =>
          nomatch htool.symm.trans (Step.tool?_eq_some_iff.mpr ⟨cmd, tool, rfl, hresponse, h, rfl⟩)
        rw [resolve, active_noteLine]
        exact if_pos (Int32.lt_iff_toInt_lt.mp hsign)
      case h_2 => exact active_noteLine cmd
    | receive line => exact active_apply _
    | reset => exact absurd rfl hop
    | _ => rfl

theorem active_run (ops : List Operation) :
    (run c ops (start c minimum)).active =
      selected (run c ops (start c minimum)).slots.length
        (sinceReset c ops (start c minimum)) := by
  refine sinceReset_invariant (I := fun h t => t.active = selected t.slots.length h) rfl
    (fun _ _ _ => rfl) (fun h t op hop ih => ?_) ops
  rw [active_perform hop, length_slots_perform, selected, List.findSome?_cons]
  cases (Step.mk t op).tool? with
  | some tool => rfl
  | none => exact ih

theorem tool?_of_leavesTool {op : Operation} (h : op.LeavesTool) : (Step.mk t op).tool? = none := by
  refine Option.eq_none_iff_forall_ne_some.mpr fun n hn => ?_
  obtain ⟨cmd, tool, rfl, hresponse, hsign, -⟩ := Step.tool?_eq_some_iff.mp hn
  have hinstruction := (eq_instruction_of_response hresponse).symm
  obtain ⟨hg, hm, htool⟩ := Command.instruction_eq_selectTool_iff.mp hinstruction
  rcases h with h | h | h
  · exact h hg
  · exact h hm
  · exact absurd hsign (Int32.not_le.mpr (h tool htool))

/-- After every run each slot holds the extruder of its number, whatever is asked next looks up only
slots that are there, and the active extruder is the one that was selected last since the run last
started over. -/
theorem slotted_and_selected (c : Config) (minimum : Nat) (ops : List Operation) :
    (run c ops (start c minimum)).Slotted c minimum ∧
      (∀ op, (run c ops (start c minimum)).perform? c op =
        some ((run c ops (start c minimum)).perform c op)) ∧
      (run c ops (start c minimum)).active =
        selected (run c ops (start c minimum)).slots.length (sinceReset c ops (start c minimum)) ∧
      ∀ t op, op.LeavesTool → (perform c op t).1.active = t.active := by
  have hslotted : (run c ops (start c minimum)).Slotted c minimum := slotted_run ops
  have hcount : c.extruderCount ≤ (run c ops (start c minimum)).slots.length := by
    rw [hslotted.length]
    omega
  refine ⟨hslotted, perform?_eq_some hslotted.active hcount, active_run ops, fun t op h => ?_⟩
  have hop : op ≠ .reset := by
    rintro rfl
    exact h
  rw [active_perform hop, tool?_of_leavesTool h]

/-- A tool beyond the slots, one among them, and one on a command that heats it. -/
def changingTools : List Operation :=
  [.send { tool := some 7 }, .send { tool := some 2 },
    .send { m := some 104, tool := some 1, words.s := some 210 }]

theorem active_after_changingTools :
    (run {} changingTools (start {} 3)).slots.length = 3 ∧
      selected 3 (sinceReset {} changingTools (start {} 3)) = 2 ∧
      (run {} (changingTools ++ [.send { tool := some (-4) }]) (start {} 3)).active =
        (run {} changingTools (start {} 3)).active := by
  obtain ⟨hslotted, -, hactive, hleaves⟩ := slotted_and_selected {} 3 changingTools
  have hlength : (run {} changingTools (start {} 3)).slots.length = 3 := hslotted.length
  rw [hlength] at hactive
  refine ⟨hlength, hactive.symm.trans (by decide), ?_⟩
  rw [run_append]
  exact hleaves (run {} changingTools (start {} 3)) (.send { tool := some (-4) })
    (.inr (.inr (by simp)))

end Tracker

end PrinterShadow
