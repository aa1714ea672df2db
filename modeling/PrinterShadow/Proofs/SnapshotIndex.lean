import PrinterShadow.Proofs.ToolSelection

/-!
Which snapshots can be asked for the extruder that they name as the active one. They list the
configured extruders, but any slot can be selected, and there is at least one slot more than there
are extruders.
-/

namespace PrinterShadow

/-- Whether the tool that was selected last in a history is a slot beyond the configured
extruders. -/
def SelectsSpare (c : Config) (slots : Nat) (h : List Step) : Prop :=
  ∃ tool ∈ h.findSome? Step.tool?, c.extruderCount ≤ tool ∧ tool < slots

instance (c : Config) (slots : Nat) (h : List Step) : Decidable (SelectsSpare c slots h) :=
  inferInstanceAs (Decidable (∃ _ ∈ _, _))

namespace Tracker

variable {c : Config} {t : Tracker}

theorem selected_lt_iff (hcount : 0 < c.extruderCount) (slots : Nat) (h : List Step) :
    selected slots h < c.extruderCount ↔ ¬ SelectsSpare c slots h := by
  unfold selected SelectsSpare
  cases h.findSome? Step.tool? with
  | none => simpa using hcount
  | some tool =>
    simp only [Option.mem_some_iff, exists_eq_left', not_and_or, Nat.not_le, Nat.not_lt]
    split <;> omega

theorem extruder_of_neg {selector : Int} (h : selector < 0) :
    t.extruder selector = t.activeExtruder := by
  rw [extruder, resolve, resolveSlot, if_pos h, activeExtruder]

theorem length_snapshot_extruders (h : c.extruderCount ≤ t.slots.length) :
    (t.snapshot c).extruders.length = c.extruderCount := by
  rw [snapshot, List.length_map, List.length_take, Nat.min_eq_left h]

theorem getElem?_snapshot_active (h : t.ActiveValid) (hactive : t.active < c.extruderCount) :
    (t.snapshot c).extruders[t.active]? = some t.activeExtruder.heater := by
  rw [snapshot, List.getElem?_map, List.getElem?_take_of_lt hactive, getElem?_active h]
  rfl

/-- A snapshot lists the configured extruders and names a slot as the active one. The slot is that
of a listed extruder, with the state that the selector of the active extruder is answered with,
unless the tool selected last since the run last started over is a slot beyond them. -/
theorem snapshot_active (c : Config) (minimum : Nat) (ops : List Operation)
    (hcount : 0 < c.extruderCount) :
    ((run c ops (start c minimum)).snapshot c).extruders.length = c.extruderCount ∧
      ((run c ops (start c minimum)).snapshot c).extruderCount = c.extruderCount ∧
      ((run c ops (start c minimum)).snapshot c).activeExtruder < slotCount c minimum ∧
      (((run c ops (start c minimum)).snapshot c).activeExtruder <
          ((run c ops (start c minimum)).snapshot c).extruders.length ↔
        ¬ SelectsSpare c (slotCount c minimum) (sinceReset c ops (start c minimum))) ∧
      (¬ SelectsSpare c (slotCount c minimum) (sinceReset c ops (start c minimum)) →
        ((run c ops (start c minimum)).snapshot c).extruders[
            ((run c ops (start c minimum)).snapshot c).activeExtruder]? =
          some ((run c ops (start c minimum)).extruder (-1)).heater) := by
  have hslotted : (run c ops (start c minimum)).Slotted c minimum := slotted_run ops
  have hslots : (run c ops (start c minimum)).slots.length = slotCount c minimum := by
    rw [hslotted.length, slotCount]
    omega
  have hlength : ((run c ops (start c minimum)).snapshot c).extruders.length = c.extruderCount := by
    refine length_snapshot_extruders ?_
    rw [hslots, slotCount]
    omega
  have hactive : (run c ops (start c minimum)).active < c.extruderCount ↔
      ¬ SelectsSpare c (slotCount c minimum) (sinceReset c ops (start c minimum)) := by
    rw [active_run, hslots]
    exact selected_lt_iff hcount _ _
  refine ⟨hlength, rfl, ?_, ?_, fun hspare => ?_⟩
  · rw [← hslots]
    exact hslotted.active
  · rw [hlength]
    exact hactive
  · rw [extruder_of_neg (by decide)]
    exact getElem?_snapshot_active hslotted.active (hactive.mpr hspare)

/-- Two extruders, of which the second is heated and selected. -/
def heatingSecond : List Operation :=
  [.send { m := some 104, tool := some 1, words.s := some 210 }, .send { tool := some 1 }]

theorem snapshot_after_heatingSecond :
    ((run { extruderCount := 2 } heatingSecond (start { extruderCount := 2 } 0)).snapshot
      { extruderCount := 2 }).extruders[1]? = some { target := 210 } := by
  have hspare : ¬ SelectsSpare { extruderCount := 2 } 3
      (sinceReset { extruderCount := 2 } heatingSecond (start { extruderCount := 2 } 0)) := by
    decide
  obtain ⟨-, -, -, -, hlisted⟩ :=
    snapshot_active { extruderCount := 2 } 0 heatingSecond (by decide)
  exact (hlisted hspare).trans (by decide)

/-- The slot beyond the one extruder is selected, and the snapshot does not list it. -/
theorem snapshot_after_selectingSpare :
    Config.validate {} = .ok () ∧ 0 < ({} : Config).extruderCount ∧
      ¬ ((run {} [.send { tool := some 1 }] (start {} 0)).snapshot {}).activeExtruder <
        ((run {} [.send { tool := some 1 }] (start {} 0)).snapshot {}).extruders.length := by
  decide +kernel

end Tracker

end PrinterShadow
