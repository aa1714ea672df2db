import PrinterShadow.Proofs.Config.Limits
import PrinterShadow.Proofs.Tracker.Motion

/-!
From the first linear move on, the head stays within the travel of its axes. Offsets may overflow to
an infinity, and the position that a tracker starts with may lie outside; what every step preserves
is that positions are finite and that offsets are numbers.
-/

namespace PrinterShadow

open Double

def Words.FiniteXyz (w : Words) : Prop :=
  ∀ a, (w.xyz.get a).all Float.isFinite

instance (w : Words) : Decidable w.FiniteXyz :=
  inferInstanceAs (Decidable (∀ _, _))

/-- Whether an operation brings only finite coordinates: the words of a command are finite, and a
line reports no coordinate. -/
def Operation.Tame : Operation → Prop
  | .send cmd => cmd.words.FiniteXyz
  | .receive line => ∀ a, Status.number? (Status.axisKey a) (Status.tokens line) = none
  | _ => True

instance : DecidablePred Operation.Tame
  | .send cmd => inferInstanceAs (Decidable cmd.words.FiniteXyz)
  | .receive _ => inferInstanceAs (Decidable (∀ _, _ = none))
  | .reset | .confirmHome | .increaseLine | .decreaseLine | .snapshot | .extruder _ | .storePause
  | .resumeCommands | .resume _ | .jog _ _ _ => .isTrue trivial

theorem Words.FiniteXyz.of_response {cmd : Command} (hcmd : cmd.words.FiniteXyz) {uploading : Bool}
    {i : Instruction} (h : Tracker.response uploading cmd = .obey i) : i.words.FiniteXyz := by
  rw [Tracker.eq_instruction_of_response h]
  rcases cmd.words_instruction with hw | hw
  · rwa [hw]
  · rw [hw]
    decide

namespace Motion

variable {c : Config} {m : Motion} {w : Words} {a : Cartesian}

/-! ## One axis -/

/-- Whether an axis is followed: its position and its offset are numbers, of which either may be
infinite. -/
structure Follows (m : Motion) (a : Cartesian) : Prop where
  position : m.position.get a ≠ .nan
  offset : m.offset.get a ≠ .nan

theorem Follows.target_ne_nan (h : m.Follows a) (hw : w.FiniteXyz) : m.target w a ≠ .nan := by
  specialize hw a
  unfold target
  cases hv : w.xyz.get a with
  | none => exact h.position
  | some v =>
    have hfin : v.isFinite := by rwa [hv] at hw
    dsimp only
    split
    · exact add_ne_nan h.position (ne_nan_of_isFinite hfin) (.inr hfin)
    · exact add_ne_nan h.offset (ne_nan_of_isFinite hfin) (.inr hfin)

/-- An instruction leaves a position where it is or brings it within the bounds. -/
theorem Follows.position_obey (hc : (c.limits.get a).Valid) (h : m.Follows a) {i : Instruction}
    (hi : i.words.FiniteXyz) :
    (m.obey c i).position.get a = m.position.get a ∨
      (c.limits.get a).Contains ((m.obey c i).position.get a) := by
  cases i with
  | linearMove w =>
    right
    rw [obey, get_position_move]
    exact hc.contains_clamp (h.target_ne_nan hi)
  | home w toUpper =>
    rw [obey, get_position_home]
    split_ifs
    · exact .inr hc.contains_upper
    · exact .inr hc.home
    · exact .inl rfl
  | _ => exact .inl rfl

theorem Follows.offset_obey (h : m.Follows a) {i : Instruction} (hi : i.words.FiniteXyz) :
    (m.obey c i).offset.get a ≠ .nan := by
  cases i with
  | home w toUpper =>
    rw [obey, get_offset_home]
    split_ifs
    · decide
    · exact h.offset
  | setPosition w =>
    specialize hi a
    rw [obey, get_offset_setPosition]
    cases hv : w.xyz.get a with
    | none => exact h.offset
    | some v =>
      have hfin : v.isFinite := by rwa [Instruction.words, hv] at hi
      exact sub_ne_nan h.position (ne_nan_of_isFinite hfin) (.inr hfin)
  | _ => exact h.offset

theorem Follows.obey (hc : (c.limits.get a).Valid) (h : m.Follows a) {i : Instruction}
    (hi : i.words.FiniteXyz) : (m.obey c i).Follows a := by
  refine ⟨?_, h.offset_obey hi⟩
  rcases h.position_obey hc hi with hpos | hpos
  · rw [hpos]
    exact h.position
  · exact ne_nan_of_isFinite (hc.isFinite_of_contains hpos)

/-! ## All axes -/

/-- What every tame step preserves: positions are finite and offsets are numbers. -/
structure Sound (m : Motion) : Prop where
  position : ∀ a, (m.position.get a).isFinite
  offset : ∀ a, m.offset.get a ≠ .nan

theorem sound_default : ({} : Motion).Sound := ⟨by decide, by decide⟩

theorem Sound.follows (h : m.Sound) (a : Cartesian) : m.Follows a :=
  ⟨ne_nan_of_isFinite (h.position a), h.offset a⟩

theorem respond_eq_obey (uploading : Bool) {cmd : Command} (hcmd : cmd.words.FiniteXyz) :
    ∃ i : Instruction, i.words.FiniteXyz ∧
      m.respond c (Tracker.response uploading cmd) = m.obey c i := by
  have hempty : ({} : Words).FiniteXyz := by decide
  cases hr : Tracker.response uploading cmd with
  | confirmHome => exact ⟨.home {} false, hempty, rfl⟩
  | ignore | gate => exact ⟨.nothing, hempty, rfl⟩
  | obey i => exact ⟨i, hcmd.of_response hr, rfl⟩

/-- A tame step is that of an instruction with finite words, unless it starts over. -/
theorem perform_eq_obey (uploading : Bool) {op : Operation} (hop : op.Tame) (hreset : op ≠ .reset) :
    ∃ i : Instruction, i.words.FiniteXyz ∧ m.perform c uploading op = m.obey c i := by
  have hempty : ({} : Words).FiniteXyz := by decide
  cases op with
  | send cmd => exact respond_eq_obey uploading hop
  | receive line =>
    refine ⟨.nothing, hempty, ?_⟩
    exact report_of_none (fun a => (Xyz.get_ofFn _ a).trans (hop a)) m
  | reset => exact absurd rfl hreset
  | confirmHome => exact ⟨.home {} false, hempty, rfl⟩
  | _ => exact ⟨.nothing, hempty, rfl⟩

theorem Sound.perform (hc : ∀ a, (c.limits.get a).Valid) (h : m.Sound) (uploading : Bool)
    {op : Operation} (hop : op.Tame) : (m.perform c uploading op).Sound := by
  by_cases hreset : op = .reset
  · subst hreset
    exact sound_default
  · obtain ⟨i, hi, heq⟩ := perform_eq_obey (c := c) (m := m) uploading hop hreset
    rw [heq]
    refine ⟨fun a => ?_, fun a => (h.follows a).offset_obey hi⟩
    rcases (h.follows a).position_obey (hc a) hi with hpos | hpos
    · rw [hpos]
      exact h.position a
    · exact (hc a).isFinite_of_contains hpos

/-- What holds from the first linear move on: positions are within the bounds, and offsets are
numbers. -/
structure Bounded (c : Config) (m : Motion) : Prop where
  position : ∀ a, (c.limits.get a).Contains (m.position.get a)
  offset : ∀ a, m.offset.get a ≠ .nan

theorem Bounded.sound (hc : ∀ a, (c.limits.get a).Valid) (h : m.Bounded c) : m.Sound :=
  ⟨fun a => (hc a).isFinite_of_contains (h.position a), h.offset⟩

theorem Bounded.perform (hc : ∀ a, (c.limits.get a).Valid) (h : m.Bounded c) (uploading : Bool)
    {op : Operation} (hop : op.Tame) (hreset : op ≠ .reset) :
    (m.perform c uploading op).Bounded c := by
  obtain ⟨i, hi, heq⟩ := perform_eq_obey (c := c) (m := m) uploading hop hreset
  rw [heq]
  have hfollows := (h.sound hc).follows
  refine ⟨fun a => ?_, fun a => (hfollows a).offset_obey hi⟩
  rcases (hfollows a).position_obey (hc a) hi with hpos | hpos
  · rw [hpos]
    exact h.position a
  · exact hpos

theorem Sound.bounded_linearMove (hc : ∀ a, (c.limits.get a).Valid) (h : m.Sound)
    (hw : w.FiniteXyz) : (m.obey c (.linearMove w)).Bounded c where
  position a := by
    rw [obey, get_position_move]
    exact (hc a).contains_clamp ((h.follows a).target_ne_nan hw)
  offset := h.offset

end Motion

namespace Tracker

variable {c : Config} {minimum : Nat}

theorem sound_run (hc : ∀ a, (c.limits.get a).Valid) {ops : List Operation}
    (hops : ∀ op ∈ ops, op.Tame) : (run c ops (start c minimum)).motion.Sound := by
  refine run_invariant (I := fun t => t.motion.Sound) (fun op hop t h => ?_) Motion.sound_default
  rw [motion_perform]
  exact h.perform hc t.uploading (hops op hop)

theorem bounded_run (hc : ∀ a, (c.limits.get a).Valid) {ops : List Operation}
    (hops : ∀ op ∈ ops, op.Tame) (hreset : ∀ op ∈ ops, op ≠ .reset) {t : Tracker}
    (h : t.motion.Bounded c) : (run c ops t).motion.Bounded c := by
  refine run_invariant (I := fun t => t.motion.Bounded c) (fun op hop t h => ?_) h
  rw [motion_perform]
  exact h.perform hc t.uploading (hops op hop) (hreset op hop)

/-- After a linear move that is obeyed, and up to the next reset, every position is within the
bounds of its axis. -/
theorem position_within_bounds (hc : c.validate = .ok ()) (minimum : Nat)
    {before after : List Operation} {cmd : Command} {w : Words}
    (hbefore : ∀ op ∈ before, op.Tame) (hcmd : cmd.words.FiniteXyz)
    (hafter : ∀ op ∈ after, op.Tame) (hreset : ∀ op ∈ after, op ≠ .reset)
    (hmove : response (run c before (start c minimum)).uploading cmd = .obey (.linearMove w))
    (a : Cartesian) :
    (c.limits.get a).Contains
      ((run c (before ++ .send cmd :: after) (start c minimum)).motion.position.get a) := by
  have hvalid := Config.valid_limits hc
  have hw : w.FiniteXyz := by
    have hinstr := congrArg Instruction.words (eq_instruction_of_response hmove)
    rcases cmd.words_instruction with hwords | hwords
    · rwa [← hwords, ← hinstr] at hcmd
    · rw [show w = {} from hinstr.trans hwords]
      decide
  rw [run_append, run_cons]
  refine (bounded_run hvalid hafter hreset ?_).position a
  rw [motion_perform]
  change (Motion.respond c _ (response _ cmd)).Bounded c
  rw [hmove]
  exact (sound_run hvalid hbefore).bounded_linearMove hvalid hw

theorem within_bounds_of_overtravel :
    (({} : Config).limits.get .x).Contains
      ((run {} ([.send { g := some 92, words.xyz := ⟨some (-500), none, some 3⟩ }] ++
        .send { g := some 1, words.xyz := ⟨some 20, none, some (-7)⟩ } ::
          [.send { g := some 92, words.xyz := ⟨none, some 5, none⟩ }, .confirmHome])
        (start {} 0)).motion.position.get .x) := by
  refine position_within_bounds (c := {}) (a := .x) (w := { xyz := ⟨some 20, none, some (-7)⟩ })
    (by rfl) 0 (by decide) (by decide) (by decide) ?_ (by decide)
  simp

end Tracker

end PrinterShadow
