import PrinterShadow.Proofs.Tracker.Changes

/-!
Which moves count layers. A move that extrudes nothing counts one just where a report had put the
filament of the active extruder beyond its furthest position, which a report does not raise, and the
move leads to another height than the layer before. Without such a report every layer is counted by
a move that extrudes.
-/

namespace PrinterShadow

open Double

namespace Filament

variable {f : Filament}

/-- A word that extrudes nothing leaves the filament, for all that the order sees, where it is. -/
theorem lt_position_advance_iff {relative : Bool} {e : Option Float}
    (h : f.extrudes relative e = false) (z : Float) :
    z < (f.advance relative e).position ↔ z < f.position := by
  cases e with
  | none => exact .rfl
  | some e =>
    cases relative with
    | true => exact lt_add_iff ((Bool.not_eq_false' _).mp h)
    | false => exact lt_congr_right ((Bool.not_eq_false' _).mp h)

end Filament

namespace Progress

variable {p : Progress}

@[simp]
theorem layer_charge (length feedRate : Float) : (p.charge length feedRate).layer = p.layer := by
  unfold charge
  split <;> rfl

theorem layer_countLayer_ne_iff {z : Float} {f : Filament} :
    (p.countLayer z f).layer ≠ p.layer ↔ f.isFurther = true ∧ (z != p.printedZ) = true := by
  rw [← Bool.and_eq_true, countLayer]
  split
  case isTrue hcount => exact iff_of_true (by simp) hcount
  case isFalse hcount => exact iff_of_false (fun h => h rfl) hcount

end Progress

namespace Step

variable {c : Config} {s : Step} {w : Words}

/-- Whether a step reports the filament of the active extruder beyond its furthest position. -/
def Overtakes (s : Step) : Prop :=
  ∃ e ∈ s.op.reportedFilament?, s.before.activeExtruder.filament.furthest < e

instance (s : Step) : Decidable s.Overtakes := inferInstanceAs (Decidable (∃ _ ∈ _, _))

theorem not_overtakes_of_none (h : s.op.reportedFilament? = none) : ¬ s.Overtakes := by
  simp [Overtakes, h]

theorem reportedFilament?_of_obeyed? {cmd : Command} (h : s.obeyed? = some cmd) :
    s.op.reportedFilament? = none := by
  rw [(obeyed?_eq_some_iff.mp h).1]
  rfl

theorem reportedFilament?_of_move? (h : s.move? = some w) : s.op.reportedFilament? = none := by
  obtain ⟨cmd, hop, -⟩ := move?_eq_some_iff.mp h
  rw [hop]
  rfl

/-- Whether a step changes the layer counter. -/
def CountsLayer (c : Config) (s : Step) : Prop :=
  (s.after c).progress.layer ≠ s.before.progress.layer

theorem move?_of_countsLayer (hreset : s.op ≠ .reset) (h : s.CountsLayer c) :
    ∃ w, s.move? = some w := by
  cases hmove : s.move? with
  | some w => exact ⟨w, rfl⟩
  | none => exact absurd (congrArg Progress.layer (progress_after hreset hmove)) h

/-- A move counts a layer just where it gets the extruder further at another height. -/
theorem countsLayer_iff (hvalid : s.before.ActiveValid) (hmove : s.move? = some w) :
    s.CountsLayer c ↔
      s.before.activeExtruder.filament.furthest < s.filament c ∧
        ((s.after c).motion.position.z != s.before.progress.printedZ) = true := by
  rw [CountsLayer, progress_after_of_move? hmove, motion_after_of_move? hmove,
    filament_of_move? hvalid hmove]
  change (Progress.charge _ _ (Progress.countLayer _ _ _)).layer ≠ _ ↔ _
  rw [Progress.layer_charge, Progress.layer_countLayer_ne_iff, Filament.isFurther_iff,
    Filament.furthest_advance]
  rfl

/-- What a command is answered is what the move tells that it makes. -/
theorem exists_move?_of_effect {t : Tracker} {cmd : Command} {r : Move}
    (h : (t.send c cmd).2 = some r) :
    ∃ w, (Step.mk t (.send cmd)).move? = some w ∧ r = (t.linearMove c w).2 := by
  rw [Tracker.send_eq] at h
  cases hresponse : Tracker.response t.uploading cmd with
  | obey i =>
    rw [hresponse] at h
    cases i with
    | linearMove w =>
      obtain ⟨lastLine, hnoted⟩ := Tracker.noteLine_eq (t := t) cmd
      rw [hnoted] at h
      exact ⟨w, move?_eq_some_iff.mpr ⟨cmd, rfl, hresponse⟩, (Option.some.inj h).symm⟩
    | _ => nomatch h
  | _ =>
    rw [hresponse] at h
    nomatch h

end Step

/-- Whether the latest step of a history that moved, homed or reported the filament of an extruder
is a report beyond its furthest position. -/
def Overtaken (k : Nat) (h : List Step) : Prop :=
  Since (fun s => ¬ (s.before.active = k ∧ (s.move?.isSome ∨ s.PlacesFilament)))
    (fun s => s.before.active = k ∧ s.Overtakes) h

instance (k : Nat) (h : List Step) : Decidable (Overtaken k h) := Since.decidable _ _ h

theorem overtaken_cons_active_iff {s : Step} {h : List Step} :
    Overtaken s.before.active (s :: h) ↔
      s.Overtakes ∨ ¬ (s.move?.isSome ∨ s.PlacesFilament) ∧ Overtaken s.before.active h := by
  rw [Overtaken, since_cons_iff]
  simp only [true_and, Overtaken]

theorem overtaken_cons_other_iff {k : Nat} {s : Step} {h : List Step} (hk : s.before.active ≠ k) :
    Overtaken k (s :: h) ↔ Overtaken k h := by
  rw [Overtaken, since_cons_iff]
  simp only [hk, false_and, false_or, not_false_eq_true, true_and, Overtaken]

/-- The filament of an extruder is beyond its furthest position just where a report put it there. -/
theorem overtakenLaw (c : Config) :
    FilamentLaw c fun k h f => f.furthest < f.position ↔ Overtaken k h where
  nil _ := iff_of_false (lt_irrefl 0) since_nil
  active {s h f f'} hchange _ hf hlaw := by
    rw [overtaken_cons_active_iff]
    cases hchange with
    | move hmove =>
      have hreport := Step.reportedFilament?_of_move? hmove
      refine iff_of_false Filament.not_lt_settle ?_
      simp [Step.not_overtakes_of_none hreport, hmove]
    | home hmove hhome =>
      have hreport : s.op.reportedFilament? = none := by
        obtain ⟨cmd, hcmd, -⟩ := hhome
        exact Step.reportedFilament?_of_obeyed? hcmd
      refine iff_of_false (lt_irrefl 0) ?_
      simp [Step.not_overtakes_of_none hreport, Step.PlacesFilament, hhome]
    | relabel hmove hhome hlabel e =>
      have hreport : s.op.reportedFilament? = none := by
        obtain ⟨cmd, hcmd, -⟩ := hlabel
        exact Step.reportedFilament?_of_obeyed? hcmd
      refine hlaw.trans ?_
      simp [Step.not_overtakes_of_none hreport, Step.PlacesFilament, hmove, hhome, hreport]
    | report hmove hhome hlabel he =>
      simp [Step.Overtakes, Step.PlacesFilament, he, hf]
    | keep hmove hhome hlabel hreport =>
      refine hlaw.trans ?_
      simp [Step.not_overtakes_of_none hreport, Step.PlacesFilament, hmove, hhome, hreport]
  other hk hlaw := hlaw.trans (overtaken_cons_other_iff hk).symm

theorem Overtaken.exists_report {k : Nat} {h : List Step} (hover : Overtaken k h) :
    ∃ s ∈ h, s.op.reportedFilament? ≠ none := by
  obtain ⟨later, s, earlier, rfl, ⟨-, hovertakes⟩, -⟩ := hover
  exact ⟨s, by simp, fun hnone => Step.not_overtakes_of_none hnone hovertakes⟩

namespace Tracker

variable {c : Config} {t : Tracker}

theorem op_mem_of_mem_history {s : Step} {ops : List Operation} (hs : s ∈ history c ops t) :
    s.op ∈ ops := by
  induction ops generalizing t with
  | nil => nomatch hs
  | cons op ops ih =>
    rcases List.mem_append.mp hs with hs | hs
    · exact List.mem_cons_of_mem op (ih hs)
    · rw [List.mem_singleton.mp hs]
      exact List.mem_cons_self

/-- A layer is counted by a move that extrudes, unless a report had put the filament of the active
extruder beyond its furthest position. A move that extrudes nothing then counts one where it leads
to another height than the layer before; without reports of the extruder it never does. -/
theorem extrudes_of_countsLayer (c : Config) (minimum : Nat) (ops : List Operation)
    (cmd : Command) :
    ((Step.mk (run c ops (start c minimum)) (.send cmd)).CountsLayer c →
      ∃ r, ((run c ops (start c minimum)).send c cmd).2 = some r ∧
        (r.extrudes = true ∨ Overtaken (run c ops (start c minimum)).active
          (sinceReset c ops (start c minimum)))) ∧
    (∀ r, ((run c ops (start c minimum)).send c cmd).2 = some r → r.extrudes = false →
      ((Step.mk (run c ops (start c minimum)) (.send cmd)).CountsLayer c ↔
        Overtaken (run c ops (start c minimum)).active (sinceReset c ops (start c minimum)) ∧
          (((run c ops (start c minimum)).send c cmd).1.motion.position.z !=
            (run c ops (start c minimum)).progress.printedZ) = true)) ∧
    ((∀ op ∈ ops, op.reportedFilament? = none) →
      ¬ Overtaken (run c ops (start c minimum)).active (sinceReset c ops (start c minimum))) := by
  have hlaw := (overtakenLaw c).obeys_run minimum ops
  have htravel : ∀ r, ((run c ops (start c minimum)).send c cmd).2 = some r → r.extrudes = false →
      ((Step.mk (run c ops (start c minimum)) (.send cmd)).CountsLayer c ↔
        Overtaken (run c ops (start c minimum)).active (sinceReset c ops (start c minimum)) ∧
          (((run c ops (start c minimum)).send c cmd).1.motion.position.z !=
            (run c ops (start c minimum)).progress.printedZ) = true) := by
    intro r hr hextrudes
    obtain ⟨w, hmove, rfl⟩ := Step.exists_move?_of_effect hr
    rw [Step.countsLayer_iff hlaw.active hmove, Step.filament_of_move? hlaw.active hmove,
      Filament.lt_position_advance_iff hextrudes, hlaw.activeExtruder]
    rfl
  refine ⟨fun hcounts => ?_, htravel, fun hquiet hover => ?_⟩
  · have hsend : Operation.send cmd ≠ .reset := nofun
    obtain ⟨w, hmove⟩ := Step.move?_of_countsLayer hsend hcounts
    obtain ⟨lastLine, hperform⟩ := Step.perform_of_move? (c := c) hmove
    have hanswer := Answer.moved.inj (congrArg Prod.snd hperform)
    refine ⟨_, hanswer, ?_⟩
    cases hextrudes : ((run c ops (start c minimum)).linearMove c w).2.extrudes with
    | true => exact .inl rfl
    | false => exact .inr ((htravel _ hanswer hextrudes).mp hcounts).1
  · obtain ⟨s, hs, hreport⟩ := hover.exists_report
    exact hreport (hquiet _ (op_mem_of_mem_history ((List.takeWhile_sublist _).mem hs)))

/-- A print that is reported short of where it was, so that the travel to another height that
follows counts no layer. -/
def retractedReport : List Operation :=
  [.send { g := some 1, words := { xyz := ⟨none, none, some 1⟩, e := some 10 } },
    .receive "ok E:7"]

theorem travels_after_retractedReport :
    ¬ (Step.mk (run {} retractedReport (start {} 0))
      (.send { g := some 0, words.xyz := ⟨none, none, some 5⟩ })).CountsLayer {} := by
  obtain ⟨-, htravel, -⟩ := extrudes_of_countsLayer {} 0 retractedReport
    { g := some 0, words.xyz := ⟨none, none, some 5⟩ }
  have hcounts := htravel ⟨⟨0, 0, 1⟩, 7, false⟩ (by decide +kernel) rfl
  exact mt hcounts.mp fun h => absurd h.1 (by decide +kernel)

/-- A report puts the filament at 10, and a travel move without a word for the extruder counts a
layer. -/
theorem layer_after_reportedFilament :
    (run {} [.receive "E:10"] (start {} 0)).progress.layer = 0 ∧
      ((run {} [.receive "E:10"] (start {} 0)).send {}
        { g := some 1, words.xyz := ⟨none, none, some 5⟩ }).2 =
          some ⟨.replicate 0, 10, false⟩ ∧
      ((run {} [.receive "E:10"] (start {} 0)).send {}
        { g := some 1, words.xyz := ⟨none, none, some 5⟩ }).1.progress.layer = 1 := by
  decide +kernel

end Tracker

end PrinterShadow
