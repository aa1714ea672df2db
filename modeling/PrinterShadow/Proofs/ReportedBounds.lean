import PrinterShadow.Proofs.Decimal.Reading
import PrinterShadow.Proofs.TravelBounds

/-!
Bounds against the lines of a firmware, which are taken over unbounded. A linear move brings every
axis within its bounds but one whose position is no number, which a bound does not stop. A position
is a number as long as no coordinate that is reported of its axis is infinite; two reports of
opposite infinities, with a new coordinate set between them, lose it.
-/

namespace PrinterShadow

open Double

theorem Status.number?_ne_nan {key : String} {ts : List Token} {v : Float}
    (h : number? key ts = some v) : v ≠ .nan := by
  obtain ⟨value, -, hread⟩ := Option.bind_eq_some_iff.mp h
  exact leadingNumber?_ne_nan hread

theorem Limits.clamp_nan (l : Limits) : l.clamp .nan = .nan := by
  have hnan : Float.nan.toModel.unpack = .notANumber := unpack_eq_notANumber.mpr rfl
  refine clamp_of_not_excludes ?_
  rintro (h | h) <;> rw [lt_iff_compare] at h
  · rw [compare_eq_none.mpr (.inl hnan)] at h
    nomatch h
  · rw [compare_eq_none.mpr (.inr hnan)] at h
    nomatch h

/-- Whether the coordinates that a command has are finite. Lines may report any. -/
def Operation.FiniteWords : Operation → Prop
  | .send cmd => cmd.words.FiniteXyz
  | _ => True

instance : DecidablePred Operation.FiniteWords
  | .send cmd => inferInstanceAs (Decidable cmd.words.FiniteXyz)
  | .receive _ | .reset | .confirmHome | .increaseLine | .decreaseLine | .snapshot | .extruder _
  | .storePause | .resumeCommands | .resume _ | .jog _ _ _ => .isTrue trivial

/-- What an operation reports as the coordinate of an axis. -/
def Operation.reported? (a : Cartesian) : Operation → Option Float
  | .receive line => Status.number? (Status.axisKey a) (Status.tokens line)
  | _ => none

theorem Operation.isInf_of_reported? {a : Cartesian} {op : Operation} {v : Float}
    (h : op.reported? a = some v) (hv : ¬ v.isFinite) : v.isInf := by
  cases op with
  | receive line => exact isInf_of_not_isFinite (Status.number?_ne_nan h) hv
  | _ => nomatch h

namespace Motion

variable {c : Config} {m : Motion} {a : Cartesian}

theorem Follows.report (h : m.Follows a) {r : Xyz (Option Float)}
    (hr : ∀ v ∈ r.get a, v.isFinite) : (m.report r).Follows a := by
  refine ⟨?_, h.offset⟩
  rw [Motion.report, Xyz.get_ofFn]
  cases hv : r.get a with
  | none => exact h.position
  | some v =>
    have hfin := hr v hv
    exact add_ne_nan (ne_nan_of_isFinite hfin) h.offset (.inl hfin)

/-- An axis stays followed unless an infinite coordinate is reported of it. -/
theorem Follows.perform (hc : ∀ a, (c.limits.get a).Valid) (h : m.Follows a) (uploading : Bool)
    {op : Operation} (hop : op.FiniteWords) (hr : ∀ v ∈ op.reported? a, v.isFinite) :
    (m.perform c uploading op).Follows a := by
  cases op with
  | send cmd =>
    obtain ⟨i, hi, heq⟩ := respond_eq_obey (c := c) (m := m) uploading hop
    change (m.respond c _).Follows a
    rw [heq]
    exact h.obey (hc a) hi
  | receive line => exact h.report fun v hv => hr v ((Xyz.get_ofFn _ a).symm.trans hv)
  | reset => exact sound_default.follows a
  | confirmHome => exact h.obey (i := .home {} false) (hc a) (by decide)
  | _ => exact h

end Motion

namespace Tracker

variable {c : Config} {minimum : Nat}

theorem follows_run (hc : ∀ a, (c.limits.get a).Valid) {ops : List Operation} {a : Cartesian}
    (hops : ∀ op ∈ ops, op.FiniteWords) (hr : ∀ op ∈ ops, ∀ v ∈ op.reported? a, v.isFinite) :
    (run c ops (start c minimum)).motion.Follows a := by
  refine run_invariant (I := fun t => t.motion.Follows a) (fun op hop t h => ?_)
    (Motion.sound_default.follows a)
  rw [motion_perform]
  exact h.perform hc t.uploading (hops op hop) (hr op hop)

/-- After a linear move that is obeyed, whatever lines were received before, the position of each
axis is within its bounds, unless it is no number; and then an infinite coordinate was reported of
the axis. -/
theorem position_within_bounds_or_nan (hc : c.validate = .ok ()) (minimum : Nat)
    {ops : List Operation} {cmd : Command} {w : Words} (hops : ∀ op ∈ ops, op.FiniteWords)
    (hcmd : cmd.words.FiniteXyz)
    (hmove : response (run c ops (start c minimum)).uploading cmd = .obey (.linearMove w))
    (a : Cartesian) :
    (c.limits.get a).Contains
        ((run c (ops ++ [.send cmd]) (start c minimum)).motion.position.get a) ∨
      (run c (ops ++ [.send cmd]) (start c minimum)).motion.position.get a = .nan ∧
        ∃ op ∈ ops, ∃ v, op.reported? a = some v ∧ v.isInf := by
  have hvalid := Config.valid_limits hc
  have hw : w.FiniteXyz := hcmd.of_response hmove
  have hposition : (run c (ops ++ [.send cmd]) (start c minimum)).motion.position.get a =
      (c.limits.get a).clamp ((run c ops (start c minimum)).motion.target w a) := by
    rw [run_append, run_cons, run_nil, motion_perform]
    change (Motion.respond c _ (response _ cmd)).position.get a = _
    rw [hmove]
    exact Motion.get_position_move w _ a
  rw [hposition]
  by_cases hnan : (run c ops (start c minimum)).motion.target w a = .nan
  · right
    rw [hnan]
    refine ⟨Limits.clamp_nan _, ?_⟩
    -- were every report of the axis finite, the axis would be followed and the target a number
    by_contra hnone
    push Not at hnone
    refine (follows_run hvalid hops fun op hop v hv => ?_).target_ne_nan hw hnan
    by_contra hfin
    exact hnone op hop v hv (Operation.isInf_of_reported? hv hfin)
  · exact .inl ((hvalid a).contains_clamp hnan)

/-- Infinities of both signs, the second reported after the first became an offset. -/
def clashingReports : List Operation :=
  [.receive "ok X:1e999 Y:250", .send { g := some 92, words.xyz := ⟨some 0, none, none⟩ },
    .receive "X:-1e999"]

theorem position_lost_to_clashingReports :
    ({} : Config).validate = .ok () ∧ (∀ op ∈ clashingReports, op.FiniteWords) ∧
      response (run {} clashingReports (start {} 0)).uploading { g := some 1 } =
        .obey (.linearMove {}) ∧
      ¬ (({} : Config).limits.get .x).Contains
        ((run {} (clashingReports ++ [.send { g := some 1 }]) (start {} 0)).motion.position.get
          .x) := by
  decide +kernel

theorem infinity_in_clashingReports :
    ∃ op ∈ clashingReports, ∃ v, op.reported? .x = some v ∧ v.isInf := by
  have hops : ∀ op ∈ clashingReports, op.FiniteWords := by decide
  have hmove : response (run {} clashingReports (start {} 0)).uploading { g := some 1 } =
      .obey (.linearMove {}) := by rfl
  have hbounds := position_within_bounds_or_nan (by rfl) 0 hops (by decide) hmove .x
  exact (hbounds.resolve_left (by decide +kernel)).2

end Tracker

end PrinterShadow
