import PrinterShadow.Proofs.Config.Limits
import PrinterShadow.Proofs.Double.Unsigned
import PrinterShadow.Proofs.Tracker.Changes

/-!
Sending a command again. The second time, a command that is no linear move changes nothing. A linear
move with absolute words leads where the head and the filament already are: it tells another effect,
but extrudes nothing, counts no layer, frees no axis and takes no time, as long as the place it led
to is finite.
-/

namespace PrinterShadow

open Double

namespace Words

/-- Whether a motion takes all words of a linear move as absolute. -/
def Absolute (w : Words) (m : Motion) : Prop :=
  (∀ a, w.names a → m.relative = false) ∧ (w.e.isSome → m.movesFilamentRelatively = false)

instance (w : Words) (m : Motion) : Decidable (w.Absolute m) :=
  inferInstanceAs (Decidable (_ ∧ _))

end Words

namespace Motion

variable {c : Config} {w : Words} {m : Motion}

theorem home_home (w : Words) (toUpper : Bool) (m : Motion) :
    (m.home c w toUpper).home c w toUpper = m.home c w toUpper := by
  refine Motion.ext (Xyz.get_ext fun a => ?_) (Xyz.get_ext fun a => ?_) rfl
    (Xyz.get_ext fun a => ?_) rfl rfl rfl
  · rw [get_position_home, get_position_home]
    split_ifs <;> rfl
  · rw [get_offset_home, get_offset_home]
    split_ifs <;> rfl
  · simp [home]

theorem get_homed_move_eq (w : Words) (m : Motion) (a : Cartesian) :
    (m.move c w).homed.get a =
      (m.homed.get a && !decide ((c.limits.get a).Excludes (m.target w a))) := by
  simp [move]

theorem setPosition_setPosition (w : Words) (m : Motion) :
    (m.setPosition w).setPosition w = m.setPosition w := by
  refine Motion.ext rfl (Xyz.get_ext fun a => ?_) rfl rfl rfl rfl rfl
  rw [get_offset_setPosition, get_offset_setPosition, position_setPosition]
  cases w.xyz.get a <;> rfl

theorem target_move (hw : ∀ a, w.names a → m.relative = false) (a : Cartesian) :
    (m.move c w).target w a =
      if w.names a then m.target w a else (c.limits.get a).clamp (m.target w a) := by
  have hmoved := get_position_move (c := c) w m a
  unfold Words.names at hw ⊢
  unfold target at hmoved ⊢
  cases hv : w.xyz.get a with
  | none =>
    rw [hv] at hmoved
    simpa using hmoved
  | some v =>
    have hrelative := hw a (by simp [hv])
    have hrelative' : (m.move c w).relative = false := hrelative
    simp only [hrelative, hrelative']
    rfl

/-- A move with absolute words leads to where it led before. -/
theorem move_move (hc : c.validate = .ok ()) (hw : ∀ a, w.names a → m.relative = false) :
    (m.move c w).move c w = m.move c w := by
  refine Motion.ext (Xyz.get_ext fun a => ?_) rfl rfl (Xyz.get_ext fun a => ?_) ?_ rfl rfl
  · rw [get_position_move, get_position_move, target_move hw]
    split_ifs
    · rfl
    · exact (c.valid_limits hc a).clamp_clamp _
  · have hfree := (c.valid_limits hc a).not_excludes_clamp (m.target w a)
    rw [get_homed_move_eq, get_homed_move_eq, target_move hw]
    split_ifs
    · rw [Bool.and_assoc, Bool.and_self]
    · rw [decide_eq_false hfree, Bool.not_false, Bool.and_true]
  · change w.feed.getD (w.feed.getD m.feedRate) = w.feed.getD m.feedRate
    cases w.feed <;> rfl

theorem unsigned_length (m : Motion) (f : Filament) : Unsigned (m.length f) := by
  have hsquare (a : Cartesian) : Unsigned (m.way a * m.way a) :=
    (Unsigned.abs _).mul (Unsigned.abs _)
  unfold length
  dsimp only
  split
  · exact (((hsquare .x).add (hsquare .y)).add (hsquare .z)).sqrt
  · exact Unsigned.abs _

/-- There is no way to where the charges led already. -/
theorem length_of_charged {f : Filament} (hm : m.charged = m.position)
    (hf : f.charged = f.position) (hfinite : ∀ a, (m.position.get a).isFinite)
    (hfinite' : f.position.isFinite) : m.length f = 0 := by
  have hway (a : Cartesian) : m.way a = 0 := by
    rw [way, hm, sub_self_of_isFinite (hfinite a)]
    rfl
  have hleast : ¬ leastWay < (0 : Float) + 0 + 0 := by decide +kernel
  rw [length, hway, hway, hway, if_neg hleast, hf, sub_self_of_isFinite hfinite']
  rfl

end Motion

namespace Filament

variable {f : Filament}

theorem settle_settle (f : Filament) : f.settle.settle = f.settle := by
  have hfurther : f.settle.isFurther = false := decide_eq_false not_lt_settle
  rw [settle, hfurther]
  rfl

/-- An absolute word leads to where it led before. -/
theorem advance_settle_advance {relative : Bool} {e : Option Float}
    (he : e.isSome → relative = false) (f : Filament) :
    (f.advance relative e).settle.advance relative e = (f.advance relative e).settle := by
  cases e with
  | none => rfl
  | some e =>
    obtain rfl := he rfl
    simp [advance, settle, target]

/-- An absolute word that leads to where the filament is extrudes nothing. -/
theorem extrudes_eq_false {relative : Bool} {e : Option Float} (he : e.isSome → relative = false)
    (h : f.advance relative e = f) (hfinite : f.position.isFinite) :
    f.extrudes relative e = false := by
  cases e with
  | none => rfl
  | some e =>
    obtain rfl := he rfl
    have htarget : f.target false e = f.position := congrArg Filament.position h
    change (f.target false e != f.position) = false
    rw [htarget, bne, beq_self_iff.mpr (ne_nan_of_isFinite hfinite)]
    rfl

theorem setPosition_setPosition (e : Option Float) (f : Filament) :
    (f.setPosition e).setPosition e = f.setPosition e := by
  cases e <;> rfl

end Filament

namespace Progress

theorem countLayer_of_not_lt {f : Filament} (h : ¬ f.furthest < f.position) (z : Float)
    (p : Progress) : p.countLayer z f = p := by
  have hfurther : f.isFurther = false := decide_eq_false h
  simp [countLayer, hfurther]

/-- A charge for no way takes no time: the time charged before is not negative zero, the only number
that adding zero changes. -/
theorem charge_zero_charge {length : Float} (h : Unsigned length) (feedRate : Float)
    (p : Progress) : (p.charge length feedRate).charge 0 feedRate = p.charge length feedRate := by
  have hsixty : Unsigned 60 := Unsigned.of_pos (by decide +kernel)
  have hnone : (0 : Float) * 60 = 0 := by decide +kernel
  unfold charge
  split
  case isTrue hpos =>
    have htime := add_ne_negativeZero p.time ((h.mul hsixty).div (Unsigned.of_pos hpos))
    rw [hnone, zero_div_of_pos hpos]
    exact congrArg (fun time => { p with time }) (add_zero_of_ne htime)
  case isFalse => rfl

end Progress

namespace Instruction

variable {cmd : Command} {number : UInt32}

theorem ofG_ne_setLineNumber {w : Words} {n : Nat} : ofG w n ≠ .setLineNumber number := by
  unfold ofG
  split <;> nofun

theorem ofM_eq_setLineNumber {n : Nat} (h : ofM cmd n = .setLineNumber number) :
    number = cmd.lineNumber.getD 0 := by
  unfold ofM at h
  split at h
  case h_11 => exact (setLineNumber.inj h).symm
  all_goals nomatch h

end Instruction

/-- The line number that a command sets is the one that it has. -/
theorem Command.number_of_setLineNumber {cmd : Command} {number : UInt32}
    (h : cmd.instruction = .setLineNumber number) : number = cmd.lineNumber.getD 0 := by
  unfold instruction at h
  split at h
  case h_1 => exact absurd h Instruction.ofG_ne_setLineNumber
  case h_2 => exact Instruction.ofM_eq_setLineNumber h
  all_goals nomatch h

namespace Tracker

variable {c : Config} {t : Tracker} {cmd : Command} {w : Words} {i : Instruction}

theorem updateFilament_updateFilament (f g : Filament → Filament) :
    (t.updateFilament f).updateFilament g = t.updateFilament fun x => g (f x) := by
  simp only [updateFilament, List.modify_modify_eq]
  rfl

theorem updateHeater_updateHeater (slot : Nat) (f g : Heater → Heater) :
    (t.updateHeater slot f).updateHeater slot g = t.updateHeater slot fun x => g (f x) := by
  simp only [updateHeater, List.modify_modify_eq]
  rfl

theorem home_home (w : Words) (toUpper : Bool) (t : Tracker) :
    (t.home c w toUpper).home c w toUpper = t.home c w toUpper := by
  let f (f : Filament) : Filament := if !toUpper && w.e.isSome then f.home else f
  have hf (x : Filament) : f (f x) = f x := by
    unfold f
    split_ifs <;> rfl
  rw [home_eq, home_eq]
  change ({ t with motion := (t.motion.home c w toUpper).home c w toUpper }.updateFilament
    f).updateFilament f = _
  rw [Motion.home_home, updateFilament_updateFilament]
  exact congrArg _ (funext hf)

theorem setPosition_setPosition (w : Words) (t : Tracker) :
    (t.setPosition w).setPosition w = t.setPosition w := by
  change ({ t with motion := (t.motion.setPosition w).setPosition w }.updateFilament
    (.setPosition w.e)).updateFilament (.setPosition w.e) = _
  rw [Motion.setPosition_setPosition, updateFilament_updateFilament]
  exact congrArg _ (funext (Filament.setPosition_setPosition w.e))

/-- An instruction that is no linear move does nothing more the second time. -/
theorem obey_obey (hi : ∀ w, i ≠ .linearMove w) (t : Tracker) :
    ((t.obey c i).1.obey c i).1 = (t.obey c i).1 := by
  cases i with
  | linearMove w => exact absurd rfl (hi w)
  | home w toUpper => exact home_home w toUpper t
  | setPosition w => exact setPosition_setPosition w t
  | heat tool target =>
    -- the update leaves the slots in place, so the selector names the same one
    have hresolve (slot : Nat) (f : Heater → Heater) (selector : Int) :
        (t.updateHeater slot f).resolve selector = t.resolve selector := by
      simp only [resolve, length_slots_updateHeater]
      rfl
    let f (h : Heater) : Heater := { h with target := target.getD h.target }
    have hf (h : Heater) : f (f h) = f h := by
      unfold f
      cases target <;> rfl
    let selector := (tool.map Int32.toInt).getD (-1)
    change (t.updateHeater (t.resolve selector) f).updateHeater
      ((t.updateHeater (t.resolve selector) f).resolve selector) f = _
    rw [hresolve, updateHeater_updateHeater]
    exact congrArg _ (funext hf)
  | heatBed target => cases target <;> rfl
  | fanOn voltage => cases voltage <;> rfl
  | debug level => cases level <;> rfl
  | selectTool tool =>
    have hresolve : ({ t with active := t.resolve tool.toInt }).resolve tool.toInt =
        t.resolve tool.toInt := by
      unfold resolve resolveSlot
      dsimp only
      split_ifs <;> rfl
    exact congrArg (fun active => { t with active }) hresolve
  | _ => rfl

theorem lastLine_obey (i : Instruction) (t : Tracker) :
    (t.obey c i).1.lastLine =
      match i with
      | .setLineNumber number => number
      | _ => t.lastLine := by
  cases i with
  | home w toUpper =>
    change (t.home c w toUpper).lastLine = _
    rw [home_eq]
    rfl
  | _ => rfl

theorem noteLine_of_lastLine (h : ∀ number, cmd.lineNumber = some number → t.lastLine = number) :
    t.noteLine cmd = t := by
  unfold noteLine
  split
  · rfl
  · cases hnumber : cmd.lineNumber with
    | none => rfl
    | some number => rw [Option.getD_some, ← h number hnumber]

theorem noteLine_obey (hdirective : cmd.directive = none) :
    ((t.noteLine cmd).obey c cmd.instruction).1.noteLine cmd =
      ((t.noteLine cmd).obey c cmd.instruction).1 := by
  refine noteLine_of_lastLine fun number hnumber => ?_
  have hnoted : (t.noteLine cmd).lastLine = number := by
    simp [noteLine, hdirective, hnumber]
  rw [lastLine_obey]
  split
  case h_1 set hset =>
    rw [Command.number_of_setLineNumber hset, hnumber]
    rfl
  case h_2 => exact hnoted

theorem confirmHome_confirmHome (t : Tracker) :
    (t.confirmHome c).confirmHome c = t.confirmHome c :=
  congrArg (fun motion => { t with motion }) (Motion.home_home {} false t.motion)

theorem response_of_directive_none (hdirective : cmd.directive = none) (uploading : Bool) :
    response uploading cmd = .gate ∨ response uploading cmd = .obey cmd.instruction := by
  simp only [response, hdirective]
  split
  · exact .inl rfl
  · exact .inr rfl

/-- A command that makes no linear move changes nothing the second time. -/
theorem send_send_of_move?_eq_none (hmove : (Step.mk t (.send cmd)).move? = none) :
    ((t.send c cmd).1.send c cmd).1 = (t.send c cmd).1 := by
  cases hdirective : cmd.directive with
  | some text =>
    have hnote (t : Tracker) : t.noteLine cmd = t := by simp [noteLine, hdirective]
    rw [send_eq, send_eq, hnote, hnote]
    simp only [response, hdirective]
    split
    · exact confirmHome_confirmHome t
    · rfl
  | none =>
    rw [send_eq (t := t)]
    rcases response_of_directive_none hdirective t.uploading with hgate | hobey
    · -- what is kept back leaves the upload going on, so it is kept back again
      have huploading : (t.noteLine cmd).uploading = t.uploading := uploading_noteLine cmd
      have hnoted : (t.noteLine cmd).noteLine cmd = t.noteLine cmd :=
        noteLine_of_lastLine fun number hnumber => by simp [noteLine, hdirective, hnumber]
      rw [hgate]
      change ((t.noteLine cmd).send c cmd).1 = t.noteLine cmd
      rw [send_eq, huploading, hgate, hnoted]
      rfl
    · have hi (w : Words) : cmd.instruction ≠ .linearMove w := fun heq =>
        Step.move?_eq_none_iff.mp hmove w cmd rfl (heq ▸ hobey)
      rw [hobey, send_eq]
      change ((((t.noteLine cmd).obey c cmd.instruction).1.noteLine cmd).respond c _).1 =
        ((t.noteLine cmd).obey c cmd.instruction).1
      rw [noteLine_obey hdirective]
      rcases response_of_directive_none hdirective
        ((t.noteLine cmd).obey c cmd.instruction).1.uploading with hagain | hagain
      · exact congrArg (fun r => (respond c _ r).1) hagain
      · exact (congrArg (fun r => (respond c _ r).1) hagain).trans (obey_obey hi (t.noteLine cmd))

/-- All coordinates are finite. -/
def PlaceFinite (t : Tracker) : Prop :=
  (∀ a, (t.motion.position.get a).isFinite) ∧ t.activeExtruder.filament.position.isFinite

instance (t : Tracker) : Decidable t.PlaceFinite := inferInstanceAs (Decidable (_ ∧ _))

theorem filament_linearMove (ht : t.ActiveValid) :
    (t.linearMove c w).1.activeExtruder.filament =
      (t.activeExtruder.filament.advance t.motion.movesFilamentRelatively w.e).settle :=
  filament_obey (c := c) (i := .linearMove w) ht nofun

/-- A linear move with absolute words does nothing more the second time but to charge for the way
from where it led to where it led. -/
theorem linearMove_linearMove (hc : c.validate = .ok ()) (ht : t.ActiveValid)
    (hw : w.Absolute t.motion) {t' : Tracker} {f : Filament} (ht' : (t.linearMove c w).1 = t')
    (hf : t'.activeExtruder.filament = f) :
    t'.linearMove c w =
      ({ t' with
          progress := t'.progress.charge (t'.motion.length f) t'.motion.feedRate
          lastMove := some ⟨t'.motion.position, f.position,
            f.extrudes t'.motion.movesFilamentRelatively w.e⟩ },
        ⟨t'.motion.position, f.position, f.extrudes t'.motion.movesFilamentRelatively w.e⟩) := by
  let g := t.activeExtruder.filament.advance t.motion.movesFilamentRelatively w.e
  obtain rfl : g.settle = f := by
    rw [← hf, ← ht']
    exact (filament_linearMove ht).symm
  subst ht'
  set t' := (t.linearMove c w).1 with ht'
  have hmotion : t'.motion.move c w = t'.motion :=
    congrArg (fun m : Motion => { m with charged := (t.motion.move c w).position })
      (Motion.move_move hc hw.1)
  have hadvance : g.settle.advance t'.motion.movesFilamentRelatively w.e = g.settle :=
    Filament.advance_settle_advance hw.2 _
  have hslots : t'.updateFilament (fun _ => g.settle) = t' :=
    congrArg (fun u : Tracker => { t' with slots := u.slots })
      (updateFilament_updateFilament (t := t) (fun _ => g.settle) fun _ => g.settle)
  rw [linearMove, hf, hmotion, hadvance, Filament.settle_settle, hslots,
    Progress.countLayer_of_not_lt Filament.not_lt_settle]
  rfl

/-- There is no way, and no time, from where a linear move led to where it led. -/
theorem charge_linearMove (ht : t.ActiveValid) {t' : Tracker} (ht' : (t.linearMove c w).1 = t')
    (hfinite : t'.PlaceFinite) :
    t'.progress.charge (t'.motion.length t'.activeExtruder.filament) t'.motion.feedRate =
      t'.progress := by
  have hfilament : t'.activeExtruder.filament.charged = t'.activeExtruder.filament.position := by
    rw [← ht', filament_linearMove ht]
    rfl
  have hmotion : t'.motion.charged = t'.motion.position := by
    rw [← ht']
    rfl
  rw [Motion.length_of_charged hmotion hfilament hfinite.1 hfinite.2, ← ht']
  exact Progress.charge_zero_charge (Motion.unsigned_length _ _) _ _

/-- A linear move with absolute words to a finite place leads there again: a move that extrudes
nothing, and that changes nothing but the effect that is noted. -/
theorem linearMove_again (hc : c.validate = .ok ()) (ht : t.ActiveValid)
    (hw : w.Absolute t.motion) {t' : Tracker} (ht' : (t.linearMove c w).1 = t')
    (hfinite : t'.PlaceFinite) :
    ∃ r, t'.linearMove c w = ({ t' with lastMove := some r }, r) ∧ r.extrudes = false := by
  have hfilament : t'.activeExtruder.filament.advance t'.motion.movesFilamentRelatively w.e =
      t'.activeExtruder.filament := by
    rw [← ht', filament_linearMove ht]
    exact Filament.advance_settle_advance hw.2 _
  have hrelative : w.e.isSome → t'.motion.movesFilamentRelatively = false := by
    rw [← ht']
    exact hw.2
  refine ⟨⟨t'.motion.position, t'.activeExtruder.filament.position, _⟩, ?_,
    Filament.extrudes_eq_false hrelative hfilament hfinite.2⟩
  rw [linearMove_linearMove hc ht hw ht' rfl, charge_linearMove ht ht' hfinite]
  rfl

/-- Sending a command again is harmless unless it moves relatively. A command that makes no linear
move changes nothing the second time. A linear move with absolute words changes nothing but the
effect that is noted, that of a move that extrudes nothing, where the configuration has no faults,
the active extruder is among the slots, as after every run, and the move led to finite coordinates.
-/
theorem send_again (c : Config) (t : Tracker) (cmd : Command) :
    ((Step.mk t (.send cmd)).move? = none →
        ((t.send c cmd).1.send c cmd).1 = (t.send c cmd).1) ∧
      ∀ w, (Step.mk t (.send cmd)).move? = some w → c.validate = .ok () → t.ActiveValid →
        w.Absolute t.motion → (t.send c cmd).1.PlaceFinite →
          ∃ r, (t.send c cmd).1.send c cmd =
              ({ (t.send c cmd).1 with lastMove := some r }, some r) ∧ r.extrudes = false := by
  refine ⟨send_send_of_move?_eq_none, fun w hmove hc ht hw hfinite => ?_⟩
  obtain ⟨cmd', hop, hresponse⟩ := Step.move?_eq_some_iff.mp hmove
  obtain rfl := Operation.send.inj hop
  obtain ⟨⟨hdirective, -⟩, hinstruction⟩ := response_eq_obey_iff.mp hresponse
  rw [← motion_noteLine (t := t) cmd] at hw
  have hvalid : (t.noteLine cmd).ActiveValid := by
    rwa [ActiveValid, active_noteLine, slots_noteLine]
  have ht' : ((t.noteLine cmd).linearMove c w).1 = (t.send c cmd).1 := by
    rw [send_eq, hresponse]
    rfl
  generalize (t.send c cmd).1 = t' at hfinite ht' ⊢
  have hnoted : t'.noteLine cmd = t' := by
    have hobeyed := noteLine_obey (c := c) (t := t) hdirective
    rw [← hinstruction] at hobeyed
    exact ht' ▸ hobeyed
  have hresponse' : response t'.uploading cmd = .obey (.linearMove w) := by
    rw [← hresponse, ← ht', ← uploading_noteLine (t := t) cmd]
    rfl
  obtain ⟨r, hagain, hextrudes⟩ := linearMove_again hc hvalid hw ht' hfinite
  refine ⟨r, ?_, hextrudes⟩
  rw [send_eq, hresponse', hnoted]
  change ((t'.linearMove c w).1, some (t'.linearMove c w).2) = _
  rw [hagain]

/-- A move beyond the bounds that extrudes on a new layer. -/
def edgeMove : Command :=
  { g := some 1, lineNumber := some 7
    words := { xyz := ⟨some 250, none, some 0.2⟩, e := some 5, feed := some 300 } }

theorem send_again_edgeMove :
    (((start {} 0).send {} { m := some 28, lineNumber := some 6 }).1.send {}
        { m := some 28, lineNumber := some 6 }).1 =
      ((start {} 0).send {} { m := some 28, lineNumber := some 6 }).1 ∧
    ∃ r : Move, ((start {} 0).send {} edgeMove).1.send {} edgeMove =
        ({ ((start {} 0).send {} edgeMove).1 with lastMove := some r }, some r) ∧
      r.extrudes = false := by
  refine ⟨(send_again {} (start {} 0) _).1 (by decide), ?_⟩
  refine (send_again {} (start {} 0) edgeMove).2 edgeMove.words ?_ ?_ ?_ ?_ ?_
  · decide
  · decide +kernel
  · exact activeValid_start {} 0
  · decide
  · decide +kernel

end Tracker

end PrinterShadow
