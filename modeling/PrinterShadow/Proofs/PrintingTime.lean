import PrinterShadow.Proofs.Homing
import PrinterShadow.Proofs.ReportedBounds
import PrinterShadow.Proofs.Tracker.Changes

/-!
What a linear move adds to the printing time. It is charged for the way from where the move before
it led, which is where it starts itself as long as nothing but moves changed the position: homing
and reports change it without a charge, so that the next move is charged for a way that it does not
go. The filament, which counts where the head stands still, is also charged by a new coordinate.
-/

namespace PrinterShadow

/-- The length of the way from the start of a move to a position: the head's, or the filament's
where the head stands still. -/
def Move.length (r : Move) (position : Xyz Float) (filament : Float) : Float :=
  let way (a : Cartesian) : Float := (position.get a - r.start.get a).abs
  if 0.001 < way .x + way .y + way .z then
    (way .x * way .x + way .y * way .y + way .z * way .z).sqrt
  else (filament - r.startFilament).abs

namespace Progress

variable {p : Progress}

@[simp]
theorem time_countLayer (z : Float) (f : Filament) : (p.countLayer z f).time = p.time := by
  unfold countLayer
  split <;> rfl

theorem time_charge (length feedRate : Float) :
    (p.charge length feedRate).time =
      if 0 < feedRate then p.time + length * 60 / feedRate else p.time := by
  unfold charge
  split <;> rfl

end Progress

namespace Step

variable {c : Config} {s : Step} {w : Words} {a : Cartesian}

/-- Whether a step adds to the printing time what the way takes from the start of a move to where
the step leads; nothing at a feed rate that is not positive. -/
def ChargedFrom (c : Config) (r : Move) (s : Step) : Prop :=
  (s.after c).progress.time =
    if 0 < (s.after c).motion.feedRate then
      s.before.progress.time +
        r.length (s.after c).motion.position (s.after c).activeExtruder.filament.position * 60 /
          (s.after c).motion.feedRate
    else s.before.progress.time

instance (c : Config) (r : Move) (s : Step) : Decidable (s.ChargedFrom c r) :=
  inferInstanceAs (Decidable (_ = _))

/-- A move is charged for the way from where the charges before it led. -/
theorem chargedFrom_charged (hvalid : s.before.ActiveValid) (hmove : s.move? = some w)
    (extrudes : Bool) :
    s.ChargedFrom c
      ⟨s.before.motion.charged, s.before.activeExtruder.filament.charged, extrudes⟩ := by
  have hmotion : (s.after c).motion = (s.before.linearMove c w).1.motion :=
    motion_after_of_move? hmove
  have hfilament : (s.after c).activeExtruder.filament.position = s.filament c := by
    rw [filament, Tracker.activeExtruder, active_after_of_move? hmove]
  have hcharged : (s.before.activeExtruder.filament.advance
      s.before.motion.movesFilamentRelatively w.e).charged =
        s.before.activeExtruder.filament.charged := by
    cases w.e <;> rfl
  rw [ChargedFrom, progress_after_of_move? hmove, hmotion, hfilament,
    filament_of_move? hvalid hmove, ← hcharged]
  change (Progress.charge _ _ (Progress.countLayer _ _ _)).time = _
  rw [Progress.time_charge, Progress.time_countLayer]
  rfl

/-- Whether a step homes an axis or reports its coordinate. -/
def Places (s : Step) (a : Cartesian) : Prop := s.Homes a ∨ (s.op.reported? a).isSome

instance (s : Step) (a : Cartesian) : Decidable (s.Places a) :=
  inferInstanceAs (Decidable (_ ∨ _))

/-- Only moves, homing and reports change the position of an axis. -/
theorem get_position_after (hreset : s.op ≠ .reset) (hmove : s.move? = none) (h : ¬ s.Places a) :
    (s.after c).motion.position.get a = s.before.motion.position.get a := by
  obtain ⟨t, op⟩ := s
  obtain ⟨hhome, hreport⟩ := not_or.mp h
  rw [after, Tracker.motion_perform]
  cases op with
  | send cmd =>
    rw [homes_send_iff, not_or] at hhome
    change (t.motion.respond c (Tracker.response t.uploading cmd)).position.get a = _
    cases hresponse : Tracker.response t.uploading cmd with
    | confirmHome => exact absurd hresponse hhome.1
    | obey i =>
      cases i with
      | linearMove w => exact absurd hresponse (move?_eq_none_iff.mp hmove w cmd rfl)
      | home w toUpper =>
        have hcovers : ¬ w.covers a := fun hcovers => hhome.2 ⟨w, toUpper, hresponse, hcovers⟩
        simp [Motion.respond, Motion.obey, hcovers]
      | _ => rfl
    | _ => rfl
  | receive line =>
    have hnone : Status.number? (Status.axisKey a) (Status.tokens line) = none := by
      simpa [Operation.reported?] using hreport
    simp [Motion.perform, Motion.report, Status.Report.ofTokens, hnone]
  | reset => exact absurd rfl hreset
  | confirmHome => exact absurd (.inl trivial) hhome
  | _ => rfl

/-- Only moves charge for the way of the head. -/
theorem charged_after (hreset : s.op ≠ .reset) (hmove : s.move? = none) :
    (s.after c).motion.charged = s.before.motion.charged := by
  obtain ⟨t, op⟩ := s
  rw [after, Tracker.motion_perform]
  cases op with
  | send cmd =>
    change (t.motion.respond c (Tracker.response t.uploading cmd)).charged = _
    cases hresponse : Tracker.response t.uploading cmd with
    | obey i =>
      cases i with
      | linearMove w => exact absurd hresponse (move?_eq_none_iff.mp hmove w cmd rfl)
      | _ => rfl
    | _ => rfl
  | reset => exact absurd rfl hreset
  | _ => rfl

/-- Whether a step charges the filament of an extruder: a move of it, or a new coordinate. -/
def ChargesFilament (k : Nat) (s : Step) : Prop :=
  s.before.active = k ∧ (s.move?.isSome ∨ s.RelabelsFilament)

instance (k : Nat) (s : Step) : Decidable (s.ChargesFilament k) :=
  inferInstanceAs (Decidable (_ ∧ _))

end Step

/-! ## Where the charges led -/

section Charges

variable {c : Config} {k : Nat} {s : Step} {h : List Step}

/-- Where the latest move led; the origin before any move. -/
def chargedHead (c : Config) (h : List Step) : Xyz Float :=
  ((h.find? (·.move?.isSome)).map fun s => (s.after c).motion.position).getD (.replicate 0)

/-- Where the latest charge of an extruder's filament led; zero before any. -/
def chargedFilament (c : Config) (k : Nat) (h : List Step) : Float :=
  ((h.find? (·.ChargesFilament k)).map (·.filament c)).getD 0

/-- Whether every homing and report since the latest move left the axes where they were. -/
def HeadKept (c : Config) (h : List Step) : Prop :=
  ∀ s ∈ h.takeWhile (·.move?.isNone), ∀ a, s.Places a →
    (s.after c).motion.position.get a = s.before.motion.position.get a

/-- Whether every homing and report of an extruder since the latest charge of its filament left the
filament where it was. -/
def FilamentKept (c : Config) (k : Nat) (h : List Step) : Prop :=
  ∀ s ∈ h.takeWhile (! ·.ChargesFilament k), s.before.active = k → s.PlacesFilament →
    s.filament c = s.before.activeExtruder.filament.position

instance (c : Config) (h : List Step) : Decidable (HeadKept c h) :=
  inferInstanceAs (Decidable (∀ _ ∈ _, ∀ _, _ → _))

instance (c : Config) (k : Nat) (h : List Step) : Decidable (FilamentKept c k h) :=
  inferInstanceAs (Decidable (∀ _ ∈ _, _ → _ → _))

theorem chargedFilament_cons_of_charges (hcharge : s.ChargesFilament k) :
    chargedFilament c k (s :: h) = s.filament c := by
  simp [chargedFilament, hcharge]

theorem chargedFilament_cons_of_not (hcharge : ¬ s.ChargesFilament k) :
    chargedFilament c k (s :: h) = chargedFilament c k h := by
  simp [chargedFilament, hcharge]

theorem filamentKept_cons_of_not (hcharge : ¬ s.ChargesFilament k) :
    FilamentKept c k (s :: h) ↔
      (s.before.active = k → s.PlacesFilament →
        s.filament c = s.before.activeExtruder.filament.position) ∧ FilamentKept c k h := by
  simp only [FilamentKept, List.takeWhile_cons, hcharge, decide_false, Bool.not_false, if_true,
    List.forall_mem_cons]

/-- The filament is charged up to where the latest charge led, and is there unless homing or a
report placed it elsewhere. -/
theorem chargedLaw (c : Config) : FilamentLaw c fun k h f =>
    f.charged = chargedFilament c k h ∧ (FilamentKept c k h → f.position = f.charged) where
  nil _ := ⟨rfl, fun _ => rfl⟩
  active {s h f f'} hchange hposition hf hlaw := by
    have hlater (hcharge : ¬ s.ChargesFilament s.before.active) (hsame : f'.charged = f.charged)
        (hplaced : ¬ s.PlacesFilament → f'.position = f.position) :
        f'.charged = chargedFilament c s.before.active (s :: h) ∧
          (FilamentKept c s.before.active (s :: h) → f'.position = f'.charged) := by
      -- the latest charge stays the same, so a step that places the filament must leave it there
      rw [chargedFilament_cons_of_not hcharge, filamentKept_cons_of_not hcharge, hsame]
      refine ⟨hlaw.1, fun hkept => Eq.trans ?_ (hlaw.2 hkept.2)⟩
      by_cases hplaces : s.PlacesFilament
      · rw [← hposition, hkept.1 rfl hplaces, hf]
      · exact hplaced hplaces
    cases hchange with
    | move hmove =>
      rw [chargedFilament_cons_of_charges ⟨rfl, .inl (by rw [hmove]; rfl)⟩, hposition]
      exact ⟨rfl, fun _ => rfl⟩
    | relabel hmove hhome hlabel e =>
      rw [chargedFilament_cons_of_charges ⟨rfl, .inr hlabel⟩, hposition]
      exact ⟨rfl, fun _ => rfl⟩
    | home hmove hhome hlabel =>
      exact hlater (by simp [Step.ChargesFilament, hmove, hlabel]) rfl (absurd (.inl hhome))
    | report hmove hhome hlabel he =>
      exact hlater (by simp [Step.ChargesFilament, hmove, hlabel]) rfl
        (absurd (.inr (by rw [he]; rfl)))
    | keep hmove hhome hlabel hreport =>
      exact hlater (by simp [Step.ChargesFilament, hmove, hlabel]) rfl fun _ => rfl
  other {s h k f} hk hlaw := by
    have hcharge : ¬ s.ChargesFilament k := fun hcharge => hk hcharge.1
    rw [chargedFilament_cons_of_not hcharge, filamentKept_cons_of_not hcharge]
    exact ⟨hlaw.1, fun hkept => hlaw.2 hkept.2⟩

end Charges

namespace Tracker

variable {c : Config} {t : Tracker} {h : List Step} {op : Operation}

/-- The head is charged up to where the latest move led, and is there unless homing or a report
placed it elsewhere. -/
structure HeadCharged (c : Config) (h : List Step) (t : Tracker) : Prop where
  charged : t.motion.charged = chargedHead c h
  position : HeadKept c h → t.motion.position = t.motion.charged

theorem HeadCharged.perform (ht : t.HeadCharged c h) (hop : op ≠ .reset) :
    (t.perform c op).1.HeadCharged c (⟨t, op⟩ :: h) := by
  cases hmove : (Step.mk t op).move? with
  | none =>
    have hcharged := Step.charged_after (c := c) (s := ⟨t, op⟩) hop hmove
    refine ⟨hcharged.trans (ht.charged.trans ?_), fun hkept => Eq.trans ?_ hcharged.symm⟩
    · simp [chargedHead, hmove]
    · simp only [HeadKept, List.takeWhile_cons, hmove, Option.isNone_none, if_true,
        List.forall_mem_cons] at hkept
      refine Eq.trans (Xyz.get_ext fun a => ?_) (ht.position hkept.2)
      by_cases hplaces : (Step.mk t op).Places a
      · exact hkept.1 a hplaces
      · exact Step.get_position_after (s := ⟨t, op⟩) hop hmove hplaces
  | some w =>
    have hmotion := Step.motion_after_of_move? (c := c) hmove
    have hcharged : (t.perform c op).1.motion.charged = (t.perform c op).1.motion.position :=
      (congrArg Motion.charged hmotion).trans (congrArg Motion.position hmotion).symm
    refine ⟨hcharged.trans ?_, fun _ => hcharged.symm⟩
    simp [chargedHead, hmove, Step.after]

theorem headCharged_run (c : Config) (minimum : Nat) (ops : List Operation) :
    (run c ops (start c minimum)).HeadCharged c (sinceReset c ops (start c minimum)) :=
  sinceReset_invariant ⟨rfl, fun _ => rfl⟩ (fun _ _ _ => ⟨rfl, fun _ => rfl⟩)
    (fun _ _ _ hop ht => ht.perform hop) ops

/-- A linear move after a run tells where it starts. It is charged for the way from where the latest
move led the head, and the latest charge the filament, since the run last started over. That is the
move's own way where no homing and no report placed the head or the filament elsewhere since. -/
theorem time_after_move (c : Config) (minimum : Nat) (ops : List Operation) {op : Operation}
    {w : Words} (hmove : (Step.mk (run c ops (start c minimum)) op).move? = some w) :
    ∃ r, ((run c ops (start c minimum)).perform c op).2 = .moved (some r) ∧
      r.start = (run c ops (start c minimum)).motion.position ∧
      r.startFilament = (run c ops (start c minimum)).activeExtruder.filament.position ∧
      (Step.mk (run c ops (start c minimum)) op).ChargedFrom c
        { r with
          start := chargedHead c (sinceReset c ops (start c minimum))
          startFilament := chargedFilament c (run c ops (start c minimum)).active
            (sinceReset c ops (start c minimum)) } ∧
      (HeadKept c (sinceReset c ops (start c minimum)) →
        FilamentKept c (run c ops (start c minimum)).active (sinceReset c ops (start c minimum)) →
          (Step.mk (run c ops (start c minimum)) op).ChargedFrom c r) := by
  have hhead := headCharged_run c minimum ops
  have hfilament := (chargedLaw c).obeys_run minimum ops
  obtain ⟨hcharged, hposition⟩ := hfilament.activeExtruder
  obtain ⟨lastLine, hperform⟩ := Step.perform_of_move? (c := c) hmove
  have hfrom := Step.chargedFrom_charged (c := c) hfilament.active hmove
  refine ⟨_, congrArg Prod.snd hperform, rfl, rfl, ?_, fun hkept hkept' => ?_⟩
  · rw [← hhead.charged, ← hcharged]
    exact hfrom _
  · have hown := hfrom ((run c ops (start c minimum)).linearMove c w).2.extrudes
    rwa [← hhead.position hkept, ← hposition hkept'] at hown

/-- A move, new coordinates where it led, and a report that says so. -/
def relabelledCorner : List Operation :=
  [.send { g := some 1, words := { xyz := ⟨some 10, none, none⟩, feed := some 300 } },
    .send { g := some 92, words := { xyz := ⟨some 0, none, none⟩, e := some 5 } },
    .receive "X:0.00 Y:0.00 E:0.00"]

theorem time_after_relabelledCorner :
    ∃ r : Move, r.start = ⟨10, 0, 0⟩ ∧
      (Step.mk (run {} relabelledCorner (start {} 0))
        (.send { g := some 1, words.xyz := ⟨some 3, some 4, none⟩ })).ChargedFrom {} r := by
  have hmove : (Step.mk (run {} relabelledCorner (start {} 0))
      (.send { g := some 1, words.xyz := ⟨some 3, some 4, none⟩ })).move? =
        some { xyz := ⟨some 3, some 4, none⟩ } := by decide +kernel
  obtain ⟨r, -, hstart, -, -, hown⟩ := time_after_move {} 0 relabelledCorner hmove
  exact ⟨r, hstart.trans (by decide +kernel), hown (by decide +kernel) (by decide +kernel)⟩

/-- Homing from where the only move led. -/
def homedCorner : List Operation :=
  [.send { g := some 1, words := { xyz := ⟨some 10, none, none⟩, feed := some 300 } },
    .send { g := some 28 }]

/-- After homing, a move from the origin of length 5 is charged for another way. -/
theorem time_after_homedCorner :
    ({} : Config).validate = .ok () ∧ (∀ op ∈ homedCorner, op.FiniteWords) ∧
      ∃ r, ((run {} homedCorner (start {} 0)).perform {}
          (.send { g := some 1, words.xyz := ⟨some 3, some 4, none⟩ })).2 = .moved (some r) ∧
        r.start = .replicate 0 ∧ r.length ⟨3, 4, 0⟩ 0 = 5 ∧
        ¬ (Step.mk (run {} homedCorner (start {} 0))
          (.send { g := some 1, words.xyz := ⟨some 3, some 4, none⟩ })).ChargedFrom {} r := by
  have hmove : (Step.mk (run {} homedCorner (start {} 0))
      (.send { g := some 1, words.xyz := ⟨some 3, some 4, none⟩ })).move? =
        some { xyz := ⟨some 3, some 4, none⟩ } := by decide +kernel
  obtain ⟨lastLine, hperform⟩ := Step.perform_of_move? (c := {}) hmove
  refine ⟨by decide +kernel, by decide, _, congrArg Prod.snd hperform, ?_⟩
  decide +kernel

end Tracker

end PrinterShadow
