import PrinterShadow.Proofs.Tracker.History
import PrinterShadow.Proofs.UploadGate

/-!
What it means that an axis is homed. The flag of an axis says that the axis was homed since the
tracker last started over, and that no linear move since then led beyond its bounds. A move leads
each axis somewhere, one that it does not name to where it is.
-/

namespace PrinterShadow

theorem Words.covers_iff {w : Words} {a : Cartesian} :
    w.covers a ↔ w.names a ∨ ∀ b, ¬ w.names b := by
  have hnone : w.namesNone ↔ ∀ b, ¬ w.names b := by
    simp only [namesNone, List.all_eq_true, Bool.not_eq_true', Bool.not_eq_true]
    exact ⟨fun h b => h b b.mem_all, fun h b _ => h b⟩
  rw [covers, Bool.or_eq_true, hnone, or_comm]

theorem Words.covers_empty (a : Cartesian) : ({} : Words).covers a := by
  cases a <;> rfl

theorem Tracker.response_eq_confirmHome_iff {uploading : Bool} {cmd : Command} :
    response uploading cmd = .confirmHome ↔ ∃ text ∈ cmd.directive, Command.confirmsHome text := by
  unfold response
  cases cmd.directive with
  | some text =>
    dsimp only
    split <;> simp [*]
  | none =>
    dsimp only
    split <;> simp

namespace Motion

variable {c : Config} {m : Motion} {w : Words} {a : Cartesian}

theorem get_homed_move : (m.move c w).homed.get a = true ↔
    m.homed.get a = true ∧ ¬ (c.limits.get a).Excludes (m.target w a) := by
  simp [move]

theorem get_homed_home (toUpper : Bool) : (m.home c w toUpper).homed.get a = true ↔
    w.covers a ∨ m.homed.get a = true := by
  simp [home]

end Motion

namespace Step

variable {c : Config} {s : Step} {a : Cartesian} {t : Tracker} {cmd : Command}

/-- Whether a step takes the word of the host that every axis is at home. -/
def ConfirmsHome (s : Step) : Prop :=
  match s.op with
  | .confirmHome => True
  | .send cmd =>
    ∃ text ∈ cmd.directive,
      (Command.directiveWords text).head? = some ['@', 'i', 's', 'a', 't', 'h', 'o', 'm', 'e']
  | _ => False

/-- Whether a step homes an axis: the host confirms it, or a command to home names the axis or names
none. -/
def Homes (s : Step) (a : Cartesian) : Prop :=
  s.ConfirmsHome ∨
    ∃ cmd ∈ s.obeyed?, (cmd.g = some 28 ∨ cmd.g = some 161 ∨ cmd.g = some 162) ∧
      (cmd.words.names a ∨ ∀ b, ¬ cmd.words.names b)

/-- Whether a step makes a linear move that leads an axis beyond its bounds. -/
def Strays (c : Config) (s : Step) (a : Cartesian) : Prop :=
  ∃ w ∈ s.move?, (c.limits.get a).Excludes (s.before.motion.target w a)

instance : DecidablePred ConfirmsHome
  | ⟨_, .confirmHome⟩ => .isTrue trivial
  | ⟨_, .send cmd⟩ => inferInstanceAs (Decidable (∃ _ ∈ cmd.directive, _))
  | ⟨_, .receive _⟩ | ⟨_, .reset⟩ | ⟨_, .increaseLine⟩ | ⟨_, .decreaseLine⟩ | ⟨_, .snapshot⟩
  | ⟨_, .extruder _⟩ | ⟨_, .storePause⟩ | ⟨_, .resumeCommands⟩ | ⟨_, .resume _⟩
  | ⟨_, .jog _ _ _⟩ => .isFalse id

instance (s : Step) (a : Cartesian) : Decidable (s.Homes a) :=
  inferInstanceAs (Decidable (_ ∨ ∃ _ ∈ _, _))

instance (c : Config) (s : Step) (a : Cartesian) : Decidable (s.Strays c a) :=
  inferInstanceAs (Decidable (∃ _ ∈ _, _))

theorem confirmsHome_send_iff : (Step.mk t (.send cmd)).ConfirmsHome ↔
    Tracker.response t.uploading cmd = .confirmHome := by
  simp only [ConfirmsHome, Tracker.response_eq_confirmHome_iff, Command.confirmsHome_iff]

theorem homes_send_iff : (Step.mk t (.send cmd)).Homes a ↔
    Tracker.response t.uploading cmd = .confirmHome ∨
      ∃ w toUpper, Tracker.response t.uploading cmd = .obey (.home w toUpper) ∧ w.covers a := by
  rw [Homes, confirmsHome_send_iff]
  refine or_congr_right ((exists_obeyed_iff (q := fun i => ∃ w toUpper, i = .home w toUpper ∧
    w.covers a) fun cmd => ?_).trans ?_)
  · simp only [exists_and_right, Command.exists_instruction_eq_home_iff, Words.covers_iff,
      and_assoc, exists_and_left, exists_eq_left]
  · simp

theorem strays_send_iff : (Step.mk t (.send cmd)).Strays c a ↔
    ∃ w, Tracker.response t.uploading cmd = .obey (.linearMove w) ∧
      (c.limits.get a).Excludes (t.motion.target w a) := by
  simp only [Strays, Option.mem_def, move?_eq_some_iff, Operation.send.injEq, exists_eq_left']

/-- What one step does to the flag of an axis. -/
theorem homed_after_iff (hreset : s.op ≠ .reset) : (s.after c).motion.homed.get a = true ↔
    s.Homes a ∨ s.before.motion.homed.get a = true ∧ ¬ s.Strays c a := by
  obtain ⟨t, op⟩ := s
  rw [after, Tracker.motion_perform]
  cases op with
  | send cmd =>
    rw [homes_send_iff, strays_send_iff]
    change (t.motion.respond c (Tracker.response t.uploading cmd)).homed.get a = true ↔ _
    generalize Tracker.response t.uploading cmd = r
    cases r with
    | confirmHome => simp [Motion.respond, Motion.get_homed_home, Words.covers_empty]
    | ignore | gate => simp [Motion.respond]
    | obey i =>
      cases i with
      | linearMove w => simpa [Motion.respond, Motion.obey] using Motion.get_homed_move
      | home w toUpper => simp [Motion.respond, Motion.obey, Motion.get_homed_home]
      | _ => simp [Motion.respond, Motion.obey, Motion.setPosition]
  | reset => exact absurd rfl hreset
  | confirmHome =>
    simp [Motion.perform, Motion.get_homed_home, Words.covers_empty, Homes, ConfirmsHome]
  | receive line =>
    simp [Motion.perform, Motion.report, Homes, ConfirmsHome, Strays, obeyed?, move?]
  | _ => simp [Motion.perform, Homes, ConfirmsHome, Strays, obeyed?, move?]

end Step

/-- Whether an operation has nothing to do with the flags: it neither starts over nor confirms that
the printer is at home, and as a command its G word, if it has one, asks for no move and no
homing. -/
def Operation.LeavesHomed : Operation → Prop
  | .reset | .confirmHome => False
  | .send cmd =>
    match cmd.directive with
    | some text => (Command.directiveWords text).head? ≠
        some ['@', 'i', 's', 'a', 't', 'h', 'o', 'm', 'e']
    | none => ∀ g ∈ cmd.g, g ∉ [0, 1, 28, 161, 162]
  | _ => True

namespace Step

variable {c : Config} {s : Step} {a : Cartesian}

theorem g_notMem_of_leavesHomed (h : s.op.LeavesHomed) {cmd : Command} (hcmd : s.obeyed? = some cmd)
    {g : UInt16} (hg : cmd.g = some g) : g ∉ [0, 1, 28, 161, 162] := by
  have hdirective := directive_of_obeyed? hcmd
  rw [(obeyed?_eq_some_iff.mp hcmd).1] at h
  simp only [Operation.LeavesHomed, hdirective] at h
  exact h g hg

theorem not_homes_of_leavesHomed (h : s.op.LeavesHomed) : ¬ s.Homes a := by
  rintro (hconfirm | ⟨cmd, hcmd, hg, -⟩)
  · obtain ⟨t, op⟩ := s
    cases op with
    | send cmd =>
      obtain ⟨text, htext, hhead⟩ := hconfirm
      rw [Option.mem_def] at htext
      simp only [Operation.LeavesHomed, htext] at h
      exact h hhead
    | confirmHome => exact h
    | _ => exact hconfirm
  · rcases hg with hg | hg | hg
    all_goals
      have hnotMem := g_notMem_of_leavesHomed h hcmd hg
      simp at hnotMem

theorem not_strays_of_leavesHomed (h : s.op.LeavesHomed) : ¬ s.Strays c a := by
  rintro ⟨w, hw, -⟩
  simp only [move?, Option.mem_def, Option.map_eq_some_iff, Option.filter_eq_some_iff,
    decide_eq_true_eq] at hw
  obtain ⟨cmd, ⟨hcmd, hg⟩, -⟩ := hw
  rcases hg with hg | hg
  all_goals
    have hnotMem := g_notMem_of_leavesHomed h hcmd hg
    simp at hnotMem

end Step

namespace Tracker

variable {c : Config} {t : Tracker}

theorem homed_perform_of_leavesHomed {op : Operation} (h : op.LeavesHomed) :
    (t.perform c op).1.motion.homed = t.motion.homed := by
  have hreset : op ≠ .reset := by
    rintro rfl
    exact h
  refine Xyz.get_ext fun a => Bool.eq_iff_iff.mpr ?_
  have hstep := Step.homed_after_iff (c := c) (a := a) (s := ⟨t, op⟩) hreset
  have hhomes : ¬ (Step.mk t op).Homes a := Step.not_homes_of_leavesHomed h
  have hstrays : ¬ (Step.mk t op).Strays c a := Step.not_strays_of_leavesHomed h
  exact hstep.trans ((or_iff_right hhomes).trans (and_iff_left hstrays))

/-- An axis is homed after a run just where it was homed since the run last started over, and since
the latest such step no linear move led it beyond its bounds. Lines of the firmware, line numbers
and commands that ask for anything but a move or homing leave the flags of all axes as they are. -/
theorem homed_iff (c : Config) (minimum : Nat) (ops : List Operation) :
    (∀ a, (run c ops (start c minimum)).motion.homed.get a = true ↔
      Since (fun s => ¬ s.Homes a ∧ ¬ s.Strays c a) (·.Homes a)
        (sinceReset c ops (start c minimum))) ∧
    ∀ t op, op.LeavesHomed → (perform c op t).1.motion.homed = t.motion.homed := by
  refine ⟨fun a => ?_, fun t op h => homed_perform_of_leavesHomed h⟩
  have hfresh : ¬ ({} : Motion).homed.get a = true := by cases a <;> nofun
  refine sinceReset_invariant (I := fun h t => t.motion.homed.get a = true ↔
    Since (fun s => ¬ s.Homes a ∧ ¬ s.Strays c a) (·.Homes a) h)
    (iff_of_false hfresh since_nil) (fun _ _ _ => iff_of_false hfresh since_nil)
    (fun h t op hop ih => ?_) ops
  have hstep := Step.homed_after_iff (c := c) (a := a) (s := ⟨t, op⟩) hop
  rw [since_cons_iff, ← ih]
  refine hstep.trans ?_
  -- where the step homes the axis, both sides hold
  by_cases hhomes : (Step.mk t op).Homes a
  · simp only [hhomes, true_or]
  · simp only [hhomes, false_or, not_false_eq_true, true_and, and_comm]

/-- All axes are homed, and a move in Y is followed while X is reported beyond its bounds. -/
def strayingUnnamed : List Operation :=
  [.send { g := some 28 }, .receive "X:250",
    .send { g := some 1, words.xyz := ⟨none, some 5, none⟩ }]

theorem homed_after_strayingUnnamed :
    ¬ Since (fun s => ¬ s.Homes .x ∧ ¬ s.Strays {} .x) (·.Homes .x)
        (sinceReset {} strayingUnnamed (start {} 0)) ∧
      Since (fun s => ¬ s.Homes .y ∧ ¬ s.Strays {} .y) (·.Homes .y)
        (sinceReset {} strayingUnnamed (start {} 0)) ∧
      (run {} (strayingUnnamed ++ [.receive "X:3"]) (start {} 0)).motion.homed =
        (run {} strayingUnnamed (start {} 0)).motion.homed := by
  obtain ⟨hhomed, hleaves⟩ := homed_iff {} 0 strayingUnnamed
  refine ⟨mt (hhomed .x).mpr (by decide +kernel), (hhomed .y).mp (by decide +kernel), ?_⟩
  rw [run_append]
  exact hleaves (run {} strayingUnnamed (start {} 0)) (.receive "X:3") trivial

end Tracker

end PrinterShadow
