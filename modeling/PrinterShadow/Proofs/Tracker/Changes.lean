import PrinterShadow.Proofs.Double.Order
import PrinterShadow.Proofs.Tracker.History

/-!
How a step changes the record of the active extruder's filament and the progress of the print. A
linear move is the only step that charges time and counts layers; the record is also changed by
homing the extruder, by a new coordinate and by a report. A law that relates the record of a slot to
the steps since the tracker started over is carried along a run by `FilamentLaw.obeys_run`.
-/

namespace PrinterShadow

namespace Filament

variable {f : Filament}

@[simp]
theorem furthest_advance (relative : Bool) (e : Option Float) :
    (f.advance relative e).furthest = f.furthest := by
  cases e <;> rfl

theorem isFurther_iff : f.isFurther ↔ f.furthest < f.position := decide_eq_true_iff

theorem not_lt_settle : ¬ f.settle.furthest < f.settle.position := by
  rw [settle]
  cases hfurther : f.isFurther with
  | true => exact Double.lt_irrefl _
  | false => exact of_decide_eq_false hfurther

end Filament

namespace Step

variable {c : Config} {s : Step} {w : Words}

/-- Whether a step gives the active extruder a new coordinate where it is. -/
def RelabelsFilament (s : Step) : Prop :=
  ∃ cmd ∈ s.obeyed?, cmd.g = some 92 ∧ cmd.words.e.isSome

instance (s : Step) : Decidable s.RelabelsFilament := inferInstanceAs (Decidable (∃ _ ∈ _, _))

theorem relabelsFilament_iff :
    s.RelabelsFilament ↔
      ∃ cmd w, s.op = .send cmd ∧
        Tracker.response s.before.uploading cmd = .obey (.setPosition w) ∧ w.e.isSome := by
  refine (exists_obeyed_iff (q := fun i => ∃ w, i = .setPosition w ∧ w.e.isSome)
    fun cmd => ?_).trans ?_
  · simp [Command.instruction_eq_setPosition_iff]
  · simp

/-- Whether a step homes the active extruder or reports the position of its filament. -/
def PlacesFilament (s : Step) : Prop := s.HomesFilament ∨ s.op.reportedFilament?.isSome

instance (s : Step) : Decidable s.PlacesFilament := inferInstanceAs (Decidable (_ ∨ _))

/-- How a step changes the record of the active extruder, and what of the step brings it about. -/
inductive FilamentChange (s : Step) (f : Filament) : Filament → Prop
  | move {w : Words} (hmove : s.move? = some w) :
    FilamentChange s f (f.advance s.before.motion.movesFilamentRelatively w.e).settle
  | home (hmove : s.move? = none) (hhome : s.HomesFilament) (hlabel : ¬ s.RelabelsFilament) :
    FilamentChange s f f.home
  | relabel (hmove : s.move? = none) (hhome : ¬ s.HomesFilament) (hlabel : s.RelabelsFilament)
    (e : Float) : FilamentChange s f (f.setPosition (some e))
  | report (hmove : s.move? = none) (hhome : ¬ s.HomesFilament) (hlabel : ¬ s.RelabelsFilament)
    {e : Float} (he : s.op.reportedFilament? = some e) : FilamentChange s f { f with position := e }
  | keep (hmove : s.move? = none) (hhome : ¬ s.HomesFilament) (hlabel : ¬ s.RelabelsFilament)
    (hreport : s.op.reportedFilament? = none) : FilamentChange s f f

theorem move?_eq_none_iff :
    s.move? = none ↔ ∀ w cmd, s.op = .send cmd →
      Tracker.response s.before.uploading cmd ≠ .obey (.linearMove w) := by
  simp only [Option.eq_none_iff_forall_ne_some, Ne, move?_eq_some_iff, not_exists, not_and]

theorem filamentChange (hreset : s.op ≠ .reset) (f : Filament) :
    s.FilamentChange f (f.perform s.before.motion s.before.uploading s.op) := by
  obtain ⟨t, op⟩ := s
  cases op with
  | send cmd =>
    change FilamentChange _ f (f.respond t.motion (Tracker.response t.uploading cmd))
    cases hresponse : Tracker.response t.uploading cmd with
    | obey i =>
      cases i with
      | linearMove w => exact .move (move?_eq_some_iff.mpr ⟨cmd, rfl, hresponse⟩)
      | home w toUpper =>
        have hmove : (Step.mk t (.send cmd)).move? = none := by simp [move?_eq_none_iff, hresponse]
        have hlabel : ¬ (Step.mk t (.send cmd)).RelabelsFilament := by
          simp [relabelsFilament_iff, hresponse]
        have hhome : (Step.mk t (.send cmd)).HomesFilament ↔ (!toUpper && w.e.isSome) = true := by
          simp [homesFilament_iff, hresponse]
        by_cases hextruder : (!toUpper && w.e.isSome) = true
        · simp only [Filament.respond, Filament.obey, hextruder]
          exact .home hmove (hhome.mpr hextruder) hlabel
        · simp only [Filament.respond, Filament.obey, hextruder]
          exact .keep hmove (mt hhome.mp hextruder) hlabel rfl
      | setPosition w =>
        have hmove : (Step.mk t (.send cmd)).move? = none := by simp [move?_eq_none_iff, hresponse]
        have hhome : ¬ (Step.mk t (.send cmd)).HomesFilament := by
          simp [homesFilament_iff, hresponse]
        have hlabel : (Step.mk t (.send cmd)).RelabelsFilament ↔ w.e.isSome := by
          simp [relabelsFilament_iff, hresponse]
        simp only [Filament.respond, Filament.obey]
        cases he : w.e with
        | none => exact .keep hmove hhome (by simp [hlabel, he]) rfl
        | some e => exact .relabel hmove hhome (by simp [hlabel, he]) e
      | _ =>
        exact .keep (by simp [move?_eq_none_iff, hresponse])
          (by simp [homesFilament_iff, hresponse]) (by simp [relabelsFilament_iff, hresponse]) rfl
    | _ =>
      exact .keep (by simp [move?_eq_none_iff, hresponse]) (by simp [homesFilament_iff, hresponse])
        (by simp [relabelsFilament_iff, hresponse]) rfl
  | receive line =>
    have hmove : (Step.mk t (.receive line)).move? = none := rfl
    have hhome : ¬ (Step.mk t (.receive line)).HomesFilament := by simp [homesFilament_iff]
    have hlabel : ¬ (Step.mk t (.receive line)).RelabelsFilament := by simp [relabelsFilament_iff]
    simp only [Filament.perform, Filament.report]
    cases he : Status.number? "E" (Status.tokens line) with
    | none => exact .keep hmove hhome hlabel he
    | some e => exact .report hmove hhome hlabel he
  | reset => exact absurd rfl hreset
  | _ => exact .keep rfl (by simp [homesFilament_iff]) (by simp [relabelsFilament_iff]) rfl

theorem not_homesFilament_of_move? (hmove : s.move? = some w) : ¬ s.HomesFilament := by
  intro hhome
  obtain ⟨cmd, hop, hresponse⟩ := move?_eq_some_iff.mp hmove
  obtain ⟨cmd', w', hop', hresponse', -⟩ := homesFilament_iff.mp hhome
  obtain rfl := Operation.send.inj (hop.symm.trans hop')
  nomatch hresponse.symm.trans hresponse'

/-- A step that makes a linear move does what the move does, but for the line number. -/
theorem perform_of_move? (hmove : s.move? = some w) :
    ∃ lastLine, s.before.perform c s.op =
      ({ (s.before.linearMove c w).1 with lastLine },
        .moved (some (s.before.linearMove c w).2)) := by
  obtain ⟨cmd, hop, hresponse⟩ := move?_eq_some_iff.mp hmove
  obtain ⟨lastLine, hnoted⟩ := Tracker.noteLine_eq (t := s.before) cmd
  refine ⟨lastLine, ?_⟩
  rw [hop]
  change ((s.before.send c cmd).1, Answer.moved (s.before.send c cmd).2) = _
  rw [Tracker.send_eq, hresponse, hnoted]
  rfl

theorem motion_after_of_move? (hmove : s.move? = some w) :
    (s.after c).motion = (s.before.linearMove c w).1.motion := by
  obtain ⟨lastLine, heq⟩ := perform_of_move? (c := c) hmove
  rw [after, heq]

theorem progress_after_of_move? (hmove : s.move? = some w) :
    (s.after c).progress = (s.before.linearMove c w).1.progress := by
  obtain ⟨lastLine, heq⟩ := perform_of_move? (c := c) hmove
  rw [after, heq]

theorem progress_after (hreset : s.op ≠ .reset) (hmove : s.move? = none) :
    (s.after c).progress = s.before.progress := by
  obtain ⟨t, op⟩ := s
  cases op with
  | send cmd =>
    have hnoted : (t.noteLine cmd).progress = t.progress := by
      obtain ⟨lastLine, heq⟩ := Tracker.noteLine_eq (t := t) cmd
      rw [heq]
    change (t.send c cmd).1.progress = _
    rw [Tracker.send_eq]
    refine Eq.trans ?_ hnoted
    cases hresponse : Tracker.response t.uploading cmd with
    | obey i =>
      cases i with
      | linearMove w => exact absurd hresponse (move?_eq_none_iff.mp hmove w cmd rfl)
      | home w toUpper =>
        change ((t.noteLine cmd).home c w toUpper).progress = _
        rw [Tracker.home_eq]
        rfl
      | _ => rfl
    | _ => rfl
  | receive line =>
    obtain ⟨slots, seen, -, heq⟩ :=
      Tracker.apply_eq (t := t) (Status.Report.ofTokens (Status.tokens line))
    change (t.apply _).progress = _
    rw [heq]
    rfl
  | reset => exact absurd rfl hreset
  | _ => rfl

/-- The position, after a step, of the extruder that was active before it. -/
def filament (c : Config) (s : Step) : Float :=
  ((s.after c).extruderAt s.before.active).filament.position

theorem active_after_of_move? (hmove : s.move? = some w) :
    (s.after c).active = s.before.active := by
  obtain ⟨lastLine, heq⟩ := perform_of_move? (c := c) hmove
  rw [after, heq]
  rfl

theorem filament_of_move? (hvalid : s.before.ActiveValid) (hmove : s.move? = some w) :
    s.filament c = (s.before.activeExtruder.filament.advance
      s.before.motion.movesFilamentRelatively w.e).position := by
  obtain ⟨lastLine, heq⟩ := perform_of_move? (c := c) hmove
  have hmoved := Tracker.filament_obey (c := c) (i := .linearMove w) hvalid nofun
  rw [filament, after, heq]
  exact Eq.trans (congrArg Filament.position hmoved) rfl

end Step

/-- A relation between the steps since a tracker started over and the record of a slot, which the
start and every step bring about. -/
structure FilamentLaw (c : Config) (J : Nat → List Step → Filament → Prop) : Prop where
  nil (k : Nat) : J k [] {}
  active {s : Step} {h : List Step} {f f' : Filament} (hchange : s.FilamentChange f f')
    (hposition : s.filament c = f'.position) (hf : s.before.activeExtruder.filament = f)
    (hlaw : J s.before.active h f) : J s.before.active (s :: h) f'
  other {s : Step} {h : List Step} {k : Nat} {f : Filament} (hk : s.before.active ≠ k)
    (hlaw : J k h f) : J k (s :: h) f

namespace Tracker

variable {c : Config} {t : Tracker} {h : List Step} {op : Operation}
  {J : Nat → List Step → Filament → Prop}

theorem ActiveValid.getElem?_filaments (ht : t.ActiveValid) :
    t.filaments[t.active]? = some t.activeExtruder.filament := by
  have hlt : t.active < t.filaments.length := by
    rw [filaments, List.length_map]
    exact ht
  rw [activeExtruder_filament, List.getD_eq_getElem?_getD, List.getElem?_eq_getElem hlt,
    Option.getD_some]

theorem filament_extruderAt_of_getElem? {k : Nat} {f : Filament} (hf : t.filaments[k]? = some f) :
    (t.extruderAt k).filament = f := by
  rw [filament_extruderAt, List.getD_eq_getElem?_getD]
  exact congrArg (·.getD {}) hf

/-- The relation holds between the steps and the record of every slot. -/
structure Obeys (J : Nat → List Step → Filament → Prop) (h : List Step) (t : Tracker) : Prop where
  active : t.ActiveValid
  filaments : ∀ k f, t.filaments[k]? = some f → J k h f

theorem Obeys.activeExtruder (ht : t.Obeys J h) : J t.active h t.activeExtruder.filament :=
  ht.filaments _ _ ht.active.getElem?_filaments

end Tracker

namespace FilamentLaw

variable {c : Config} {t : Tracker} {h : List Step} {op : Operation}
  {J : Nat → List Step → Filament → Prop}

theorem obeys_nil (law : FilamentLaw c J) (hactive : t.ActiveValid)
    (hfilaments : ∀ f ∈ t.filaments, f = {}) : t.Obeys J [] where
  active := hactive
  filaments k f hf := by
    rw [hfilaments f (List.mem_of_getElem? hf)]
    exact law.nil k

theorem obeys_start (law : FilamentLaw c J) (minimum : Nat) :
    (Tracker.start c minimum).Obeys J [] :=
  law.obeys_nil (Tracker.activeValid_start c minimum) (Tracker.filaments_start minimum)

theorem obeys_reset (law : FilamentLaw c J) (ht : t.Obeys J h) : t.reset.Obeys J [] := by
  refine law.obeys_nil (ht.active.perform (c := c) .reset) fun f hf => ?_
  obtain ⟨ex, hex, rfl⟩ := List.mem_map.mp hf
  obtain ⟨ex', -, rfl⟩ := List.mem_map.mp hex
  rfl

theorem obeys_perform (law : FilamentLaw c J) (ht : t.Obeys J h) (hop : op ≠ .reset) :
    (t.perform c op).1.Obeys J (⟨t, op⟩ :: h) where
  active := ht.active.perform op
  filaments k f' hf' := by
    -- only the record of the active slot is another one
    have hposition := congrArg Filament.position (Tracker.filament_extruderAt_of_getElem? hf')
    rw [Tracker.filaments_perform hop, List.getElem?_modify] at hf'
    obtain ⟨f, hf, heq⟩ := Option.map_eq_some_iff.mp hf'
    split at heq
    case isTrue hk =>
      subst hk heq
      have hfilament := Option.some.inj (ht.active.getElem?_filaments.symm.trans hf)
      have hchange := Step.filamentChange (s := ⟨t, op⟩) hop f
      exact law.active hchange hposition hfilament (ht.filaments _ f hf)
    case isFalse hk =>
      subst heq
      exact law.other hk (ht.filaments k f hf)

/-- A law holds after every run. -/
theorem obeys_run (law : FilamentLaw c J) (minimum : Nat) (ops : List Operation) :
    (Tracker.run c ops (Tracker.start c minimum)).Obeys J
      (Tracker.sinceReset c ops (Tracker.start c minimum)) :=
  Tracker.sinceReset_invariant (law.obeys_start minimum) (fun _ _ => law.obeys_reset)
    (fun _ _ _ hop ht => law.obeys_perform ht hop) ops

end FilamentLaw

end PrinterShadow
