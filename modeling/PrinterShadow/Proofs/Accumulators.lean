import PrinterShadow.Proofs.ExtrudedLayers
import PrinterShadow.Proofs.LayerCount
import PrinterShadow.Proofs.PrintingTime
import PrinterShadow.Proofs.Resend

/-!
What only grows along a run until the tracker starts over: the printing time, since the way that a
move is charged for has no minus sign whatever its words are, the furthest position of an extruder
that is not homed, and the layer counter, which a move raises by one at most.
-/

namespace PrinterShadow

open Double

namespace Progress

variable {p : Progress} {length : Float}

theorem unsigned_time_charge (hp : Unsigned p.time) (hlength : Unsigned length)
    (feedRate : Float) : Unsigned (p.charge length feedRate).time := by
  rw [time_charge]
  split
  case isTrue hfeed =>
    have hminutes : Unsigned (length * 60) := hlength.mul (.of_pos (by decide))
    exact hp.add (hminutes.div (.of_pos hfeed))
  case isFalse => exact hp

theorem not_time_charge_lt (hp : Unsigned p.time) (hlength : Unsigned length)
    (feedRate : Float) : ¬ (p.charge length feedRate).time < p.time := by
  rw [time_charge]
  split
  case isTrue hfeed =>
    have hminutes : Unsigned (length * 60) := hlength.mul (.of_pos (by decide))
    exact hp.not_add_lt (hminutes.div (.of_pos hfeed))
  case isFalse => exact lt_irrefl _

theorem layer_countLayer (z : Float) (f : Filament) :
    (p.countLayer z f).layer = p.layer ∨ (p.countLayer z f).layer = p.layer + 1 := by
  unfold countLayer
  split
  · exact .inr rfl
  · exact .inl rfl

end Progress

namespace Step

variable {c : Config} {s : Step}

/-- How a step changes the progress of a print: a move may count a layer and is charged for a way,
and no other step changes it. -/
inductive ProgressChange (s : Step) (p : Progress) : Progress → Prop
  | move (hmove : s.move?.isSome) (z : Float) (f : Filament) {length : Float}
    (hlength : Unsigned length) (feedRate : Float) :
    ProgressChange s p ((p.countLayer z f).charge length feedRate)
  | keep (hmove : s.move? = none) : ProgressChange s p p

theorem progressChange (hreset : s.op ≠ .reset) :
    s.ProgressChange s.before.progress (s.after c).progress := by
  cases hmove : s.move? with
  | none =>
    rw [progress_after hreset hmove]
    exact .keep hmove
  | some w =>
    rw [progress_after_of_move? hmove]
    exact .move (Option.isSome_of_eq_some hmove) _ _ (Motion.unsigned_length _ _) _

theorem ProgressChange.unsigned_time {p p' : Progress} (h : s.ProgressChange p p')
    (hp : Unsigned p.time) : Unsigned p'.time := by
  cases h with
  | move hmove z f hlength feedRate =>
    exact Progress.unsigned_time_charge (by rwa [Progress.time_countLayer]) hlength feedRate
  | keep => exact hp

theorem ProgressChange.not_time_lt {p p' : Progress} (h : s.ProgressChange p p')
    (hp : Unsigned p.time) : ¬ p'.time < p.time := by
  cases h with
  | move hmove z f hlength feedRate =>
    have hcounted : Unsigned (p.countLayer z f).time := by rwa [Progress.time_countLayer]
    have hcharged := Progress.not_time_charge_lt hcounted hlength feedRate
    rwa [Progress.time_countLayer] at hcharged
  | keep => exact lt_irrefl _

theorem ProgressChange.layer {p p' : Progress} (h : s.ProgressChange p p') :
    p'.layer = p.layer ∨ s.move?.isSome ∧ p'.layer = p.layer + 1 := by
  cases h with
  | move hmove z f =>
    rw [Progress.layer_charge]
    exact (Progress.layer_countLayer z f).imp_right (.intro hmove)
  | keep => exact .inl rfl

theorem FilamentChange.homesFilament_of_lt {f f' : Filament} (h : s.FilamentChange f f')
    (hlt : f'.furthest < f.furthest) : s.HomesFilament := by
  cases h with
  | move hmove =>
    rw [Filament.furthest_settle, Filament.furthest_advance] at hlt
    split at hlt
    case isTrue hfurther => exact absurd (lt_of_le_of_lt (le_of_lt hfurther) hlt) (lt_irrefl _)
    case isFalse => exact absurd hlt (lt_irrefl _)
  | home hmove hhome => exact hhome
  | relabel | report | keep => exact absurd hlt (lt_irrefl _)

end Step

namespace Tracker

variable {c : Config} {t : Tracker} {op : Operation}

theorem unsigned_time_run (c : Config) (minimum : Nat) (ops : List Operation) :
    Unsigned (run c ops (start c minimum)).progress.time := by
  have hzero : Unsigned 0 := rfl
  refine run_invariant (I := fun t => Unsigned t.progress.time) (fun op _ t ht => ?_) hzero
  by_cases hreset : op = .reset
  · subst hreset
    exact hzero
  · exact (Step.progressChange (s := ⟨t, op⟩) hreset).unsigned_time ht

/-- Only homing its extruder makes a furthest position smaller, but for starting over. -/
theorem homesFilament_of_furthest_lt (hreset : op ≠ .reset) {k : Nat} {f f' : Filament}
    (hf : t.filaments[k]? = some f) (hf' : (t.perform c op).1.filaments[k]? = some f')
    (hlt : f'.furthest < f.furthest) : t.active = k ∧ (Step.mk t op).HomesFilament := by
  rw [filaments_perform hreset, List.getElem?_modify, hf] at hf'
  obtain rfl := Option.some.inj hf'
  split at hlt
  case isTrue hk => exact ⟨hk, (Step.filamentChange hreset f).homesFilament_of_lt hlt⟩
  case isFalse => exact absurd hlt (lt_irrefl _)

/-- At every time of a run the printing time is not negative, and the furthest positions are
numbers that are not negative. An operation that does not start over makes the printing time no
smaller, makes a furthest position smaller only by homing its extruder while it is the active one,
and changes a layer counter that is not about to overflow only as a move that raises it by one. -/
theorem accumulators_grow (c : Config) (minimum : Nat) (ops : List Operation) :
    ¬ (run c ops (start c minimum)).progress.time < 0 ∧
      (∀ ex ∈ (run c ops (start c minimum)).slots,
        ex.filament.furthest ≠ .nan ∧ ¬ ex.filament.furthest < 0) ∧
      ∀ op, op ≠ .reset →
        ¬ ((run c ops (start c minimum)).perform c op).1.progress.time <
            (run c ops (start c minimum)).progress.time ∧
          (∀ k ex ex', (run c ops (start c minimum)).slots[k]? = some ex →
            ((run c ops (start c minimum)).perform c op).1.slots[k]? = some ex' →
              ex'.filament.furthest < ex.filament.furthest →
                (run c ops (start c minimum)).active = k ∧
                  (Step.mk (run c ops (start c minimum)) op).HomesFilament) ∧
          ((run c ops (start c minimum)).progress.layer.toNat < 2 ^ 32 - 1 →
            ((run c ops (start c minimum)).perform c op).1.progress.layer =
                (run c ops (start c minimum)).progress.layer ∨
              (Step.mk (run c ops (start c minimum)) op).move?.isSome ∧
                ((run c ops (start c minimum)).perform c op).1.progress.layer.toNat =
                  (run c ops (start c minimum)).progress.layer.toNat + 1) := by
  have htime := unsigned_time_run c minimum ops
  have hfurthest := (furthestLaw c).obeys_run minimum ops
  refine ⟨htime.not_lt_zero, fun ex hex => ?_, fun op hreset => ⟨?_, fun k ex ex' hex hex' => ?_,
    fun hlayer => ?_⟩⟩
  · obtain ⟨k, hk⟩ := List.mem_iff_getElem?.mp hex
    have hnonneg : 0 ≤ ex.filament.furthest :=
      (hfurthest.filaments k _ (by rw [filaments, List.getElem?_map, hk]; rfl)).nonneg
    exact ⟨(ne_nan_of_le hnonneg).2, not_lt_of_le hnonneg⟩
  · exact (Step.progressChange (s := ⟨_, op⟩) hreset).not_time_lt htime
  · refine homesFilament_of_furthest_lt (c := c) hreset ?_ ?_
    · rw [filaments, List.getElem?_map, hex]
      rfl
    · rw [filaments, List.getElem?_map, hex']
      rfl
  · refine (Step.progressChange (c := c) (s := ⟨_, op⟩) hreset).layer.imp_right fun h => ⟨h.1, ?_⟩
    have hsum := congrArg UInt32.toNat h.2
    rw [UInt32.toNat_add] at hsum
    exact hsum.trans (Nat.mod_eq_of_lt (Nat.add_lt_of_lt_sub hlayer))

/-- A layer printed by the first extruder, which is then put aside. -/
def firstColour : List Operation :=
  [.send { g := some 1, words := { xyz := ⟨none, none, some 1⟩, e := some 2, feed := some 600 } },
    .send { tool := some 1 }]

/-- Homing the second extruder leaves the furthest position of the first. -/
theorem furthest_after_homedSecond :
    (run {} firstColour (start {} 0)).slots[0]? = some
        { id := 0, filament := { position := 2, furthest := 2, charged := 2, counter := 2 } } ∧
      ∀ ex, ((run {} firstColour (start {} 0)).perform {}
          (.send { g := some 28, words.e := some 0 })).1.slots[0]? = some ex →
        ¬ ex.filament.furthest < 2 := by
  have hslot : (run {} firstColour (start {} 0)).slots[0]? = some
      { id := 0, filament := { position := 2, furthest := 2, charged := 2, counter := 2 } } := by
    decide +kernel
  obtain ⟨-, -, hstep⟩ := accumulators_grow {} 0 firstColour
  obtain ⟨-, hfurthest, -⟩ := hstep (.send { g := some 28, words.e := some 0 }) nofun
  refine ⟨hslot, fun ex hex hlt => ?_⟩
  have hactive := (hfurthest 0 _ ex hslot hex hlt).1
  exact absurd hactive (by decide +kernel)

/-- Starting over is no move and sets the layer counter back. -/
theorem layer_after_startingOver :
    (run {} [.send { g := some 1, words := { xyz := ⟨none, none, some 1⟩, e := some 2 } }]
        (start {} 0)).progress.layer = 1 ∧
      (Step.mk (run {} [.send { g := some 1, words := { xyz := ⟨none, none, some 1⟩, e := some 2 } }]
        (start {} 0)) .reset).move? = none ∧
      ((run {} [.send { g := some 1, words := { xyz := ⟨none, none, some 1⟩, e := some 2 } }]
        (start {} 0)).perform {} .reset).1.progress.layer = 0 := by
  decide +kernel

end Tracker

end PrinterShadow
