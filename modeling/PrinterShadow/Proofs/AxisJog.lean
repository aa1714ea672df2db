import PrinterShadow.Proofs.Decimal.Written
import PrinterShadow.Proofs.Resend
import PrinterShadow.Proofs.Resume

/-!
Jogging an axis. The word of a jog is the delta or a coordinate, as the mode of positioning asks,
and it is followed in the mode it was written for; so in either mode an axis moves by its delta,
whatever its offset is. Were the mode the other one, the tracker would be the same after the jog but
for the mode and for the signs of zeros.
-/

namespace PrinterShadow

open Double

/-! ## The same but for the mode of positioning -/

namespace Motion

variable {c : Config} {m m' : Motion} {w w' : Words}

/-- The same motion but for the mode of positioning and the signs of zeros. -/
structure Alike (m m' : Motion) : Prop where
  position : ∀ a, m.position.get a == m'.position.get a
  charged : ∀ a, m.charged.get a == m'.charged.get a
  rest : m = { m' with position := m.position, charged := m.charged, relative := m.relative }

theorem position_move_congr {a : Cartesian} (h : m.target w a == m'.target w' a) :
    (m.move c w).position.get a == (m'.move c w').position.get a := by
  rw [get_position_move, get_position_move]
  exact Limits.clamp_congr h

/-- Moves in two modes to targets that are equal as numbers, once all of the way is charged. -/
theorem move_alike {relative : Bool} (hfeed : w.feed = w'.feed)
    (htarget : ∀ a, m.target w a == { m with relative }.target w' a) :
    { m.move c w with charged := (m.move c w).position }.Alike
      { { m with relative }.move c w' with
        charged := ({ m with relative }.move c w').position } := by
  have hposition (a : Cartesian) := position_move_congr (c := c) (htarget a)
  have hhomed : (m.move c w).homed = ({ m with relative }.move c w').homed := by
    refine Xyz.get_ext fun a => ?_
    rw [get_homed_move_eq, get_homed_move_eq]
    simp only [Limits.excludes_congr (htarget a)]
  have hrate : (m.move c w).feedRate = ({ m with relative }.move c w').feedRate := by
    simp only [move, feedAfter, hfeed]
  exact ⟨hposition, hposition, Motion.ext rfl rfl rfl hhomed hrate rfl rfl⟩

theorem length_congr (hposition : ∀ a, m.position.get a == m'.position.get a)
    (hcharged : m.charged = m'.charged) (f : Filament) : m.length f = m'.length f := by
  have hway (a : Cartesian) : m.way a = m'.way a := by
    rw [way, way, hcharged]
    exact abs_sub_congr (hposition a) _
  simp only [length, hway]

end Motion

namespace Progress

variable {p p' : Progress}

/-- The same progress but for the sign of a zero. -/
structure Alike (p p' : Progress) : Prop where
  printedZ : p.printedZ = p'.printedZ ∨ p.printedZ == p'.printedZ
  rest : p = { p' with printedZ := p.printedZ }

theorem countLayer_alike {z z' : Float} (h : z == z') (f : Filament) (p : Progress) :
    (p.countLayer z f).Alike (p.countLayer z' f) := by
  unfold countLayer
  rw [bne_congr h]
  split
  · exact ⟨.inr h, rfl⟩
  · exact ⟨.inl rfl, rfl⟩

theorem Alike.charge (h : p.Alike p') (length feedRate : Float) :
    (p.charge length feedRate).Alike (p'.charge length feedRate) := by
  unfold Progress.charge
  split
  · exact ⟨h.printedZ, congrArg
      (fun q : Progress => { q with time := q.time + length * 60 / feedRate }) h.rest⟩
  · exact h

end Progress

/-- The same tracker but for the mode of positioning and the signs of zeros. -/
structure Tracker.Alike (t t' : Tracker) : Prop where
  motion : t.motion.Alike t'.motion
  progress : t.progress.Alike t'.progress
  rest : t = { t' with motion := t.motion, progress := t.progress }

/-! ## Moves of one axis -/

namespace Words

/-- The words of a move of one axis. -/
def only (a : Cartesian) (v feed : Float) : Words where
  xyz := .ofFn fun b => if b = a then some v else none
  feed := some feed

end Words

namespace Motion

variable {c : Config} {m : Motion} {a b : Cartesian} {v feed : Float}

theorem target_only_self : m.target (.only a v feed) a =
    if m.relative then m.position.get a + v else m.offset.get a + v := by
  simp [target, Words.only]

theorem target_only_of_ne (h : b ≠ a) : m.target (.only a v feed) b = m.position.get b := by
  simp [target, Words.only, h]

/-- Whether the head is at whole coordinates within the limits, and the offsets are whole, all below
`2 ^ 40`. -/
structure WholeWithin (c : Config) (m : Motion) : Prop where
  position : ∀ a, WholeBelow (2 ^ 40) (m.position.get a)
  offset : ∀ a, WholeBelow (2 ^ 40) (m.offset.get a)
  contains : ∀ a, (c.limits.get a).Contains (m.position.get a)

end Motion

namespace Tracker

variable {c : Config} {t u : Tracker} {a : Cartesian} {delta feed : Float}

/-- What a move of one axis does. -/
theorem linearMove_only (v : Float) (t : Tracker) :
    (t.linearMove c (.only a v feed)).1 =
      let motion := t.motion.move c (.only a v feed)
      let filament := t.activeExtruder.filament
      { t.updateFilament fun _ => filament.settle with
        motion := { motion with charged := motion.position }
        progress := (t.progress.countLayer motion.position.z filament).charge
          (motion.length filament) feed
        lastMove := some ⟨t.motion.position, filament.position, false⟩ } := rfl

/-- A filament that is not named only gets its furthest position and its charge. -/
theorem filaments_linearMove_only (v : Float) (t : Tracker) :
    (t.linearMove c (.only a v feed)).1.filaments = t.filaments.modify t.active Filament.settle :=
  filaments_obey (.linearMove (.only a v feed))

theorem linearMove_only_alike {relative : Bool} {v v' : Float}
    (h : ∀ b, t.motion.target (.only a v feed) b ==
      { t.motion with relative }.target (.only a v' feed) b) :
    (t.linearMove c (.only a v feed)).1.Alike
      ({ t with motion.relative := relative }.linearMove c (.only a v' feed)).1 := by
  let m := t.motion.move c (.only a v feed)
  let m' := { t.motion with relative }.move c (.only a v' feed)
  have hfeed : (Words.only a v feed).feed = (Words.only a v' feed).feed := rfl
  have hmoved := Motion.move_alike (c := c) hfeed h
  have hlength : m.length t.activeExtruder.filament = m'.length t.activeExtruder.filament :=
    Motion.length_congr (fun b => Motion.position_move_congr (h b)) rfl _
  have hlayer := Progress.countLayer_alike (hmoved.position .z) t.activeExtruder.filament t.progress
  rw [linearMove_only, linearMove_only]
  refine ⟨hmoved, ?_, rfl⟩
  change Progress.Alike _ (Progress.charge (m'.length t.activeExtruder.filament) feed _)
  rw [← hlength]
  exact hlayer.charge _ _

/-- What the text of an axis's jog asks for. -/
theorem instruction_jogLine_cartesian (t : Tracker) (a : Cartesian) (delta feed : Float) :
    (t.jogLine (.cartesian a) delta feed).instruction =
      .linearMove
        { xyz := .ofFn fun b =>
            if b = a then (Fixed.ofFloat 2 (t.jogWord (.cartesian a) delta)).toFloat? else none
          feed := (Fixed.ofFloat 0 feed).toFloat? } := by
  cases a <;>
    simp [jogLine, Gcode.Line.instruction, Gcode.Line.command, Gcode.Line.number?,
      Gcode.Word.ofFloat, Axis.letter, Xyz.ofFn, Cartesian.letter, Instruction.ofG]

/-- The text of an axis's jog, followed outside an upload, moves that axis by the word that is
written. -/
theorem run_jogCommand_cartesian (hup : t.uploading = false) {n : Int}
    (hword : Whole (t.jogWord (.cartesian a) delta) n) {k : Nat} (hk : 0 < k)
    (hfeed : value feed = k) :
    ∃ v, Whole v n ∧
      run c [.send (Gcode.read (t.jogCommand (.cartesian a) delta feed))] t =
        (t.linearMove c (.only a v feed)).1 := by
  obtain ⟨v, hv, hwhole⟩ := Fixed.toFloat?_ofFloat hword 2
  have hinstruction : (t.jogLine (.cartesian a) delta feed).instruction =
      .linearMove (.only a v feed) := by
    rw [instruction_jogLine_cartesian, hv, Fixed.toFloat?_ofFloat_of_value hk hfeed]
    rfl
  refine ⟨v, hwhole, ?_⟩
  rw [run_jogCommand_eq hup, hinstruction]
  rfl

/-- The word of a jog leads from where the axis is by the delta, in either mode. -/
theorem exists_word_of_jog (h : t.motion.WholeWithin c) (hdelta : WholeBelow (2 ^ 40) delta)
    (a : Cartesian) (feed : Float) :
    ∃ n, Whole (t.jogWord (.cartesian a) delta) n ∧ ∀ v, Whole v n →
      t.motion.target (.only a v feed) a == t.motion.position.get a + delta := by
  obtain ⟨hp, hp'⟩ := h.position a
  obtain ⟨ho, ho'⟩ := h.offset a
  obtain ⟨hd, hd'⟩ := hdelta
  have hgoal := hp.add hd (by omega)
  cases hrel : t.motion.relative with
  | true =>
    refine ⟨_, by rwa [jogWord, if_pos hrel], fun v hv => ?_⟩
    rw [Motion.target_only_self, if_pos hrel]
    exact (hp.add hv (by omega)).beq hgoal
  | false =>
    have hcoordinate := hp.sub ho (by omega)
    have hnot : ¬ t.motion.relative = true := by simp [hrel]
    refine ⟨_, by rw [jogWord, if_neg hnot]; exact hcoordinate.add hd (by omega), fun v hv => ?_⟩
    rw [Motion.target_only_self, if_neg hnot]
    have hsum (p o d : Int) : o + (p - o + d) = p + d := by omega
    refine ho.add_beq hv ?_
    rwa [hsum]

/-- What a jog of an axis does: it moves by the delta as far as its limits let it, and is homed no
longer where they stop it; nothing else moves, and of no filament the position, the offset or the
counter changes. -/
structure Jogged (c : Config) (a : Cartesian) (delta feed : Float) (t u : Tracker) : Prop where
  position : u.motion.position.get a == (c.limits.get a).clamp (t.motion.position.get a + delta)
  homed : u.motion.homed.get a = true ↔ t.motion.homed.get a = true ∧
    ¬ (c.limits.get a).Excludes (t.motion.position.get a + delta)
  others : ∀ b, b ≠ a → u.motion.position.get b = t.motion.position.get b ∧
    u.motion.homed.get b = t.motion.homed.get b
  feedRate : u.motion.feedRate = feed
  offset : u.motion.offset = t.motion.offset
  relative : u.motion.relative = t.motion.relative
  extruderRelative : u.motion.extruderRelative = t.motion.extruderRelative
  filaments : u.filaments.map (fun f => (f.position, f.offset, f.counter)) =
    t.filaments.map fun f => (f.position, f.offset, f.counter)

theorem jogged_linearMove (ht : t.motion.WholeWithin c) {v : Float}
    (htarget : t.motion.target (.only a v feed) a == t.motion.position.get a + delta) :
    t.Jogged c a delta feed (t.linearMove c (.only a v feed)).1 where
  position := by
    change ((t.motion.move c _).position.get a == _) = true
    rw [Motion.get_position_move]
    exact Limits.clamp_congr htarget
  homed := by
    change (t.motion.move c _).homed.get a = true ↔ _
    rw [Motion.get_homed_move_eq]
    simp [Limits.excludes_congr htarget]
  others b hb := by
    have hin := Limits.not_excludes_of_contains (ht.contains b)
    have hstays : t.motion.target (.only a v feed) b = t.motion.position.get b :=
      Motion.target_only_of_ne hb
    change (t.motion.move c _).position.get b = _ ∧ (t.motion.move c _).homed.get b = _
    rw [Motion.get_position_move, Motion.get_homed_move_eq, hstays]
    exact ⟨Limits.clamp_of_not_excludes hin, by simp [hin]⟩
  feedRate := rfl
  offset := rfl
  relative := rfl
  extruderRelative := rfl
  filaments := by
    have hplace (f : Filament) : (f.settle.position, f.settle.offset, f.settle.counter) =
        (f.position, f.offset, f.counter) := rfl
    rw [filaments_linearMove_only]
    exact map_modify_of_eq hplace _ _

/-- The text of a jog, followed outside an upload from whole coordinates within the limits, jogs the
axis. Had the mode of positioning been another, the text for that mode would have done the same. -/
theorem run_jogCommand_jogs (hup : t.uploading = false) (ht : t.motion.WholeWithin c)
    (hdelta : WholeBelow (2 ^ 40) delta) {k : Nat} (hk : 0 < k) (hfeed : value feed = k)
    (hu : run c [.send (Gcode.read (t.jogCommand (.cartesian a) delta feed))] t = u) :
    t.Jogged c a delta feed u ∧
      ∀ relative, u.Alike (run c [.send (Gcode.read
        (jogCommand (.cartesian a) delta feed { t with motion.relative := relative }))]
          { t with motion.relative := relative }) := by
  obtain ⟨n, hword, htarget⟩ := exists_word_of_jog ht hdelta a feed
  obtain ⟨v, hv, hrun⟩ := run_jogCommand_cartesian (c := c) hup hword hk hfeed
  have hgoal := htarget v hv
  rw [← hu, hrun]
  refine ⟨jogged_linearMove ht hgoal, fun relative => ?_⟩
  -- the word of the other mode leads to the same number
  have ht' : ({ t.motion with relative } : Motion).WholeWithin c :=
    ⟨ht.position, ht.offset, ht.contains⟩
  obtain ⟨n', hword', htarget'⟩ := exists_word_of_jog
    (t := { t with motion.relative := relative }) ht' hdelta a feed
  obtain ⟨v', hv', hrun'⟩ := run_jogCommand_cartesian (c := c)
    (t := { t with motion.relative := relative }) hup hword' hk hfeed
  rw [hrun']
  refine linearMove_only_alike fun b => ?_
  by_cases hb : b = a
  · subst hb
    exact BEq.trans hgoal (BEq.symm (htarget' v' hv'))
  · rw [Motion.target_only_of_ne hb, Motion.target_only_of_ne hb]
    exact (ht.position b).1.beq (ht.position b).1

/-- Homed and moved, with another origin in X, and positioned relatively. -/
def shiftedOrigin : Tracker :=
  run {} [.send { g := some 28 },
    .send { g := some 1, words := { xyz := ⟨some 50, some 20, none⟩, e := some 3 } },
    .send { g := some 92, words.xyz := ⟨some 10, none, none⟩ }, .send { g := some 91 }] (start {} 0)

theorem run_jogCommand_shiftedOrigin :
    shiftedOrigin.jogCommand (.cartesian .x) 175 600 = "G1 X175.00 F600" ∧
      (run {} [.send (Gcode.read (shiftedOrigin.jogCommand (.cartesian .x) 175 600))]
        shiftedOrigin).motion.position.x == 200 ∧
      (run {} [.send (Gcode.read (shiftedOrigin.jogCommand (.cartesian .x) 175 600))]
        shiftedOrigin).motion.homed.x = false ∧
      jogCommand (.cartesian .x) 175 600 { shiftedOrigin with motion.relative := false } =
        "G1 X185.00 F600" ∧
      (run {} [.send (Gcode.read (shiftedOrigin.jogCommand (.cartesian .x) 175 600))]
        shiftedOrigin).Alike
        (run {} [.send (Gcode.read (jogCommand (.cartesian .x) 175 600
          { shiftedOrigin with motion.relative := false }))]
          { shiftedOrigin with motion.relative := false }) := by
  have hwhole : shiftedOrigin.motion.WholeWithin {} := by
    constructor <;> intro a <;> cases a <;> decide +kernel
  have hfeed : value 600 = (600 : Nat) := by decide +kernel
  obtain ⟨hjogged, halike⟩ := run_jogCommand_jogs (a := .x) (by decide +kernel) hwhole
    (by decide +kernel : WholeBelow (2 ^ 40) 175) (by decide) hfeed rfl
  have hbound : (({} : Config).limits.get .x).clamp (shiftedOrigin.motion.position.get .x + 175) ==
      200 := by decide +kernel
  have hbeyond : (({} : Config).limits.get .x).Excludes
      (shiftedOrigin.motion.position.get .x + 175) := by decide +kernel
  refine ⟨by decide +kernel, BEq.trans hjogged.position hbound, ?_, by decide +kernel, halike false⟩
  exact Bool.eq_false_iff.mpr fun h => (hjogged.homed.mp h).2 hbeyond

end Tracker

end PrinterShadow
