import PrinterShadow.Proofs.Tracker.Changes

/-!
What the layer counter counts. A move of the active extruder gets further where it passes zero and
every position that a move brought this extruder to since it was last homed. The counter is the
number of changes of height along the moves that get further, of whatever extruder, the first
compared with zero.
-/

namespace PrinterShadow

open Double

/-! ## The furthest position -/

/-- The greatest of zero and the numbers in a list. -/
structure Furthest (m : Float) (qs : List Float) : Prop where
  nonneg : 0 ≤ m
  attained : m = 0 ∨ m ∈ qs
  bound : ∀ q ∈ qs, q ≠ .nan → q ≤ m

namespace Furthest

variable {m p : Float} {qs : List Float}

theorem nil : Furthest 0 [] where
  nonneg := le_refl (by decide)
  attained := .inl rfl
  bound := List.forall_mem_nil _

theorem lt_iff (h : Furthest m qs) : m < p ↔ 0 < p ∧ ∀ q ∈ qs, q ≠ .nan → q < p := by
  constructor
  · intro hlt
    exact ⟨lt_of_le_of_lt h.nonneg hlt, fun q hq hnan => lt_of_le_of_lt (h.bound q hq hnan) hlt⟩
  · rintro ⟨hzero, hall⟩
    rcases h.attained with rfl | hmem
    · exact hzero
    · exact hall m hmem (ne_nan_of_le h.nonneg).2

theorem cons (h : Furthest m qs) (p : Float) : Furthest (if m < p then p else m) (p :: qs) := by
  have hm : m ≠ .nan := (ne_nan_of_le h.nonneg).2
  split
  case isTrue hlt =>
    refine ⟨le_of_lt (lt_of_le_of_lt h.nonneg hlt), .inr List.mem_cons_self, fun q hq hnan => ?_⟩
    rcases List.mem_cons.mp hq with rfl | hq
    · exact le_refl hnan
    · exact le_of_lt (lt_of_le_of_lt (h.bound q hq hnan) hlt)
  case isFalse hle =>
    refine ⟨h.nonneg, h.attained.imp_right (List.mem_cons_of_mem p), fun q hq hnan => ?_⟩
    rcases List.mem_cons.mp hq with rfl | hq
    · exact le_of_not_lt hm hnan hle
    · exact h.bound q hq hnan

end Furthest

/-! ## The changes of height -/

/-- The number of changes along heights, the latest first, of which the first is compared with
zero. -/
def changes : List Float → Nat
  | [] => 0
  | z :: zs => (if z != zs.headD 0 then 1 else 0) + changes zs

theorem changes_le_length (zs : List Float) : changes zs ≤ zs.length := by
  induction zs with
  | nil => exact Nat.le_refl 0
  | cons z zs ih =>
    rw [changes, List.length_cons]
    split <;> omega

namespace Progress

variable {p : Progress} {zs : List Float}

/-- The counter counts the changes along the heights. What it compares with next is equal to the
latest of them, if not the same: the two zeros are equal. -/
structure Counts (p : Progress) (zs : List Float) : Prop where
  layer : p.layer = UInt32.ofNat (changes zs)
  printedZ : ∀ z, (z != p.printedZ) = (z != zs.headD 0)

theorem Counts.countLayer (h : p.Counts zs) (z : Float) (f : Filament) :
    (p.countLayer z f).Counts (if f.isFurther then z :: zs else zs) := by
  unfold Progress.countLayer
  cases f.isFurther with
  | false => exact h
  | true =>
    simp only [Bool.true_and, if_true]
    cases hz : z != p.printedZ with
    | true =>
      refine ⟨?_, fun _ => rfl⟩
      rw [h.printedZ] at hz
      simp only [changes, hz, if_true, h.layer, Nat.add_comm 1, UInt32.ofNat_add]
      rfl
    | false =>
      -- the move gets further at an equal height, which is then the one compared with
      have hsame : (z == p.printedZ) = true := by rwa [bne, Bool.not_eq_false'] at hz
      refine ⟨?_, fun z' => congrArg not (BEq.congr_right (BEq.symm hsame))⟩
      rw [h.printedZ] at hz
      simp only [changes, hz, Bool.false_eq_true, if_false, Nat.zero_add, h.layer]

theorem Counts.charge (h : p.Counts zs) (length feedRate : Float) :
    (p.charge length feedRate).Counts zs := by
  unfold Progress.charge
  split
  · exact ⟨h.layer, h.printedZ⟩
  · exact h

end Progress

/-! ## Histories -/

/-- The positions that moves brought an extruder to since it was last homed, the latest first. -/
def reached (c : Config) (k : Nat) (h : List Step) : List Float :=
  ((h.takeWhile fun s => ¬ (s.before.active = k ∧ s.HomesFilament)).filter fun s =>
    s.move?.isSome ∧ s.before.active = k).map (·.filament c)

/-- Whether a step after a history is a move that brings the active extruder further than zero and
than the moves since it was last homed. -/
def Step.GetsFurther (c : Config) (h : List Step) (s : Step) : Prop :=
  s.move?.isSome ∧ 0 < s.filament c ∧
    ∀ q ∈ reached c s.before.active h, q ≠ .nan → q < s.filament c

instance (c : Config) (h : List Step) (s : Step) : Decidable (s.GetsFurther c h) :=
  inferInstanceAs (Decidable (_ ∧ _))

/-- The heights after the moves that get further, the latest first. -/
def heights (c : Config) : List Step → List Float
  | [] => []
  | s :: h =>
    if s.GetsFurther c h then (s.after c).motion.position.z :: heights c h else heights c h

theorem length_heights_le (c : Config) (h : List Step) :
    (heights c h).length ≤ h.countP (·.move?.isSome) := by
  induction h with
  | nil => exact Nat.le_refl 0
  | cons s h ih =>
    rw [heights, List.countP_cons]
    split
    case isTrue hfurther =>
      rw [List.length_cons, if_pos hfurther.1]
      omega
    case isFalse => omega

section Reached

variable {c : Config} {k : Nat} {s : Step} {h : List Step}

theorem reached_cons_of_homesFilament (hactive : s.before.active = k) (hhome : s.HomesFilament) :
    reached c k (s :: h) = [] := by
  simp [reached, hactive, hhome]

theorem reached_cons_of_move? (hactive : s.before.active = k) (hmove : s.move?.isSome)
    (hhome : ¬ s.HomesFilament) : reached c k (s :: h) = s.filament c :: reached c k h := by
  simp [reached, hactive, hmove, hhome]

theorem reached_cons_of_not (hhome : ¬ (s.before.active = k ∧ s.HomesFilament))
    (hmove : ¬ (s.move?.isSome ∧ s.before.active = k)) :
    reached c k (s :: h) = reached c k h := by
  simp only [reached, List.takeWhile_cons, hhome, not_false_eq_true, decide_true, if_true,
    List.filter_cons, hmove, decide_false, Bool.false_eq_true, if_false]

end Reached

namespace Filament

variable {f : Filament}

theorem furthest_settle :
    f.settle.furthest = if f.furthest < f.position then f.position else f.furthest := by
  simp only [settle, isFurther_iff]

end Filament

theorem furthestLaw (c : Config) :
    FilamentLaw c fun k h f => Furthest f.furthest (reached c k h) where
  nil _ := .nil
  active {s h f f'} hchange hposition _ hlaw := by
    cases hchange with
    | move hmove =>
      rw [reached_cons_of_move? rfl (by rw [hmove]; rfl) (Step.not_homesFilament_of_move? hmove),
        hposition, Filament.furthest_settle, Filament.furthest_advance]
      exact hlaw.cons _
    | home hmove hhome =>
      rw [reached_cons_of_homesFilament rfl hhome]
      exact .nil
    | relabel hmove hhome | report hmove hhome | keep hmove hhome =>
      rw [reached_cons_of_not (fun hh => hhome hh.2) (by simp [hmove])]
      exact hlaw
  other hk hlaw := by
    rw [reached_cons_of_not (fun hh => hk hh.1) fun hh => hk hh.2]
    exact hlaw

namespace Tracker

variable {c : Config} {t : Tracker} {h : List Step} {op : Operation}

/-- What the steps since a tracker started over say of its furthest positions and its counter. -/
structure Recounts (c : Config) (h : List Step) (t : Tracker) : Prop where
  furthest : t.Obeys (fun k h f => Furthest f.furthest (reached c k h)) h
  progress : t.progress.Counts (heights c h)

theorem Recounts.getsFurther_iff (ht : t.Recounts c h) {w : Words}
    (hmove : (Step.mk t op).move? = some w) :
    (Step.mk t op).GetsFurther c h ↔
      (t.activeExtruder.filament.advance t.motion.movesFilamentRelatively w.e).isFurther := by
  have hposition := Step.filament_of_move? (c := c) ht.furthest.active hmove
  rw [Filament.isFurther_iff, Filament.furthest_advance, ht.furthest.activeExtruder.lt_iff,
    Step.GetsFurther, hposition, hmove]
  exact and_iff_right rfl

theorem Recounts.perform (ht : t.Recounts c h) (hop : op ≠ .reset) :
    (t.perform c op).1.Recounts c (⟨t, op⟩ :: h) where
  furthest := (furthestLaw c).obeys_perform ht.furthest hop
  progress := by
    rw [heights]
    cases hmove : (Step.mk t op).move? with
    | none =>
      rw [if_neg fun hfurther => by simpa [hmove] using hfurther.1]
      exact (Step.progress_after (c := c) (s := ⟨t, op⟩) hop hmove).symm ▸ ht.progress
    | some w =>
      have hz : ((Step.mk t op).after c).motion.position.z = (t.motion.move c w).position.z :=
        congrArg (·.position.z) (Step.motion_after_of_move? hmove)
      have hprogress := Step.progress_after_of_move? (c := c) hmove
      rw [hz]
      simp only [ht.getsFurther_iff hmove]
      exact hprogress.symm ▸ (ht.progress.countLayer _ _).charge _ _

theorem recounts_run (c : Config) (minimum : Nat) (ops : List Operation) :
    (run c ops (start c minimum)).Recounts c (sinceReset c ops (start c minimum)) :=
  sinceReset_invariant ⟨(furthestLaw c).obeys_start minimum, ⟨rfl, fun _ => rfl⟩⟩
    (fun _ _ ht => ⟨(furthestLaw c).obeys_reset ht.furthest, ⟨rfl, fun _ => rfl⟩⟩)
    (fun _ _ _ hop ht => ht.perform hop) ops

/-- After a run with no more moves than the counter can count, the counter is the number of changes
of height along the moves that got further since the run last started over, and the furthest
position of every extruder is the greatest that moves brought it to since it was last homed.
Operations that start nothing over and make no move that gets further leave the counter. -/
theorem layer_eq_changes (c : Config) (minimum : Nat) (ops : List Operation)
    (hmoves : (sinceReset c ops (start c minimum)).countP (·.move?.isSome) < 2 ^ 32) :
    (run c ops (start c minimum)).progress.layer.toNat =
        changes (heights c (sinceReset c ops (start c minimum))) ∧
      (∀ k ex, (run c ops (start c minimum)).slots[k]? = some ex →
        Furthest ex.filament.furthest (reached c k (sinceReset c ops (start c minimum)))) ∧
      ∀ op, op ≠ .reset →
        ¬ (Step.mk (run c ops (start c minimum)) op).GetsFurther c
            (sinceReset c ops (start c minimum)) →
          ((run c ops (start c minimum)).perform c op).1.progress.layer =
            (run c ops (start c minimum)).progress.layer := by
  have hrecounts := recounts_run c minimum ops
  refine ⟨?_, fun k ex hex => ?_, fun op hop hfurther => ?_⟩
  · rw [hrecounts.progress.layer]
    refine UInt32.toNat_ofNat_of_lt' ((changes_le_length _).trans_lt ?_)
    exact (length_heights_le c _).trans_lt hmoves
  · refine hrecounts.furthest.filaments k ex.filament ?_
    rw [filaments, List.getElem?_map, hex, Option.map_some]
  · have hlayer := (hrecounts.perform hop).progress.layer
    rwa [heights, if_neg hfurther, ← hrecounts.progress.layer] at hlayer

/-- A print by two extruders. The one that comes back to work at a new height starts short of where
it was, so that the height counts with its second move only. -/
def twoColours : List Operation :=
  [.send { g := some 1, words := { xyz := ⟨none, none, some 1⟩, e := some 2 } },
    .send { g := some 1, words.e := some 5 },
    .send { tool := some 1 },
    .send { g := some 1, words := { xyz := ⟨none, none, some 2⟩, e := some 1 } },
    .send { tool := some 0 },
    .send { g := some 1, words := { xyz := ⟨none, none, some 3⟩, e := some 4 } },
    .send { g := some 1, words.e := some 6 }]

theorem layer_after_twoColours :
    changes (heights {} (sinceReset {} twoColours (start {} 0))) = 3 ∧
      Furthest 6 (reached {} 0 (sinceReset {} twoColours (start {} 0))) ∧
      (run {} (twoColours ++ [.send { g := some 1, words.e := some 3 }])
          (start {} 0)).progress.layer =
        (run {} twoColours (start {} 0)).progress.layer := by
  obtain ⟨hlayer, hfurthest, hleaves⟩ :=
    layer_eq_changes {} 0 twoColours (by decide +kernel)
  have hslot : (run {} twoColours (start {} 0)).slots[0]? = some
      { id := 0, filament := { position := 6, furthest := 6, charged := 6, counter := 6 } } := by
    decide +kernel
  refine ⟨hlayer.symm.trans (by decide +kernel), hfurthest 0 _ hslot, ?_⟩
  rw [run_append]
  exact hleaves (.send { g := some 1, words.e := some 3 }) nofun (by decide +kernel)

end Tracker

end PrinterShadow
