import PrinterShadow.Proofs.Double.Bounds
import PrinterShadow.Proofs.Resume
import PrinterShadow.Proofs.Tracker.Filaments

/-!
How far the numbers of a tracker grow. As long as the limits, the words that are sent and the
coordinates that are reported are no further than `2 ^ 1000` from zero, every operation adds at most
that much to the positions and the offsets. In runs that are not exceedingly long nothing overflows,
and what a pause captures is finite.
-/

namespace PrinterShadow

open Double

/-- Whether the coordinates that a command has are at most `2 ^ 1000`, and its feed rate finite. -/
structure Words.Modest (w : Words) : Prop where
  xyz : ∀ a, ∀ v ∈ w.xyz.get a, Within 1 v
  e : ∀ v ∈ w.e, Within 1 v
  feed : ∀ v ∈ w.feed, v.isFinite

instance (w : Words) : Decidable w.Modest :=
  decidable_of_iff ((∀ a, ∀ v ∈ w.xyz.get a, Within 1 v) ∧ (∀ v ∈ w.e, Within 1 v) ∧
      ∀ v ∈ w.feed, v.isFinite)
    ⟨fun h => ⟨h.1, h.2.1, h.2.2⟩, fun h => ⟨h.xyz, h.e, h.feed⟩⟩

theorem Words.modest_empty : ({} : Words).Modest :=
  ⟨fun a => by cases a <;> exact nofun, nofun, nofun⟩

theorem Words.Modest.instruction {cmd : Command} (h : cmd.words.Modest) :
    cmd.instruction.words.Modest := by
  rcases cmd.words_instruction with hw | hw
  · rwa [hw]
  · rw [hw]
    exact modest_empty

/-- Whether an operation brings only numbers up to `2 ^ 1000`: a command in its words, a line in the
coordinates that it reports. -/
def Operation.Modest : Operation → Prop
  | .send cmd => cmd.words.Modest
  | .receive line =>
    (∀ a, ∀ v ∈ Status.number? (Status.axisKey a) (Status.tokens line), Within 1 v) ∧
      ∀ v ∈ Status.number? "E" (Status.tokens line), Within 1 v
  | _ => True

instance : DecidablePred Operation.Modest
  | .send cmd => inferInstanceAs (Decidable cmd.words.Modest)
  | .receive _ => inferInstanceAs (Decidable (_ ∧ _))
  | .reset | .confirmHome | .increaseLine | .decreaseLine | .snapshot | .extruder _ | .storePause
  | .resumeCommands | .resume _ | .jog _ _ _ => .isTrue trivial

/-- Whether the limits of all axes are at most `2 ^ 1000`. -/
def Config.Modest (c : Config) : Prop :=
  ∀ a, Within 1 (c.limits.get a).lower ∧ Within 1 (c.limits.get a).upper ∧
    Within 1 (c.limits.get a).home

instance (c : Config) : Decidable c.Modest := inferInstanceAs (Decidable (∀ _, _))

namespace Motion

structure Within (k : Nat) (m : Motion) : Prop where
  position : ∀ a, Double.Within k (m.position.get a)
  offset : ∀ a, Double.Within k (m.offset.get a)
  feedRate : m.feedRate.isFinite

variable {c : Config} {m : Motion} {k : Nat}

theorem within_default : ({} : Motion).Within k :=
  ⟨fun a => by cases a <;> exact .zero, fun a => by cases a <;> exact .zero, by decide⟩

theorem Within.mono {l : Nat} (h : m.Within k) (hkl : k ≤ l) : m.Within l :=
  ⟨fun a => (h.position a).mono hkl, fun a => (h.offset a).mono hkl, h.feedRate⟩

theorem Within.target (h : m.Within k) (hk : k + 1 < 2 ^ 24) {w : Words} (hw : w.Modest)
    (a : Cartesian) : Double.Within (k + 1) (m.target w a) := by
  unfold Motion.target
  cases hv : w.xyz.get a with
  | none => exact (h.position a).mono (Nat.le_succ k)
  | some v =>
    have hvalue := hw.xyz a v hv
    dsimp only
    split
    · exact (h.position a).add hvalue hk
    · exact (h.offset a).add hvalue hk

/-- An instruction adds at most one number that a command may have. -/
theorem Within.obey (hc : c.Modest) (h : m.Within k) (hk : k + 1 < 2 ^ 24) {i : Instruction}
    (hi : i.words.Modest) : (m.obey c i).Within (k + 1) := by
  have hbound : 1 ≤ k + 1 := Nat.le_add_left 1 k
  have hsame := h.mono (Nat.le_succ k)
  cases i with
  | linearMove w =>
    refine ⟨fun a => ?_, hsame.offset, ?_⟩
    · obtain ⟨hlower, hupper, -⟩ := hc a
      rw [Motion.obey, get_position_move]
      exact Limits.within_clamp (hlower.mono hbound) (hupper.mono hbound) (h.target hk hi a)
    · change (w.feed.getD m.feedRate).isFinite
      cases hfeed : w.feed with
      | none => exact h.feedRate
      | some v => exact hi.feed v hfeed
  | home w toUpper =>
    refine ⟨fun a => ?_, fun a => ?_, h.feedRate⟩
    · obtain ⟨-, hupper, hhome⟩ := hc a
      rw [Motion.obey, get_position_home]
      split_ifs
      · exact hupper.mono hbound
      · exact hhome.mono hbound
      · exact hsame.position a
    · rw [Motion.obey, get_offset_home]
      split_ifs
      · exact .zero
      · exact hsame.offset a
  | setPosition w =>
    refine ⟨hsame.position, fun a => ?_, h.feedRate⟩
    rw [Motion.obey, get_offset_setPosition]
    cases hv : w.xyz.get a with
    | none => exact hsame.offset a
    | some v => exact (h.position a).sub (hi.xyz a v hv) hk
  | _ => exact ⟨hsame.position, hsame.offset, h.feedRate⟩

theorem Within.report (h : m.Within k) (hk : k + 1 < 2 ^ 24) {r : Xyz (Option Float)}
    (hr : ∀ a, ∀ v ∈ r.get a, Double.Within 1 v) : (m.report r).Within (k + 1) := by
  have hsame := h.mono (Nat.le_succ k)
  refine ⟨fun a => ?_, hsame.offset, h.feedRate⟩
  rw [Motion.report, Xyz.get_ofFn]
  cases hv : r.get a with
  | none => exact hsame.position a
  | some v =>
    rw [Nat.add_comm]
    exact (hr a v hv).add (h.offset a) (by omega)

theorem Within.perform (hc : c.Modest) (h : m.Within k) (hk : k + 1 < 2 ^ 24) (uploading : Bool)
    {op : Operation} (hop : op.Modest) : (m.perform c uploading op).Within (k + 1) := by
  have hsame := h.mono (Nat.le_succ k)
  have hhome : (m.home c {} false).Within (k + 1) :=
    h.obey (i := .home {} false) hc hk Words.modest_empty
  cases op with
  | send cmd =>
    change (m.respond c (Tracker.response uploading cmd)).Within (k + 1)
    cases hr : Tracker.response uploading cmd with
    | confirmHome => exact hhome
    | ignore => exact hsame
    | gate => exact hsame
    | obey i =>
      rw [Tracker.eq_instruction_of_response hr]
      exact h.obey hc hk (Words.Modest.instruction hop)
  | receive line => exact h.report hk fun a v hv => hop.1 a v ((Xyz.get_ofFn _ a).symm.trans hv)
  | reset => exact within_default
  | confirmHome => exact hhome
  | _ => exact hsame

end Motion

namespace Filament

structure Within (k : Nat) (f : Filament) : Prop where
  position : Double.Within k f.position
  offset : Double.Within k f.offset
  counter : Double.Within k f.counter

variable {f : Filament} {k : Nat}

theorem within_default : ({} : Filament).Within k := ⟨.zero, .zero, .zero⟩

theorem Within.mono {l : Nat} (h : f.Within k) (hkl : k ≤ l) : f.Within l :=
  ⟨h.position.mono hkl, h.offset.mono hkl, h.counter.mono hkl⟩

theorem Within.obey (h : f.Within k) (hk : k + 1 < 2 ^ 24) (m : Motion) {i : Instruction}
    (hi : i.words.Modest) : (f.obey m i).Within (k + 1) := by
  have hsame := h.mono (Nat.le_succ k)
  have hbound : 1 ≤ k + 1 := Nat.le_add_left 1 k
  cases i with
  | linearMove w =>
    change ((f.advance m.movesFilamentRelatively w.e).settle).Within (k + 1)
    have hadvance : (f.advance m.movesFilamentRelatively w.e).Within (k + 1) := by
      unfold advance target
      cases he : w.e with
      | none => exact hsame
      | some e =>
        have hvalue := hi.e e he
        dsimp only
        split
        · exact ⟨h.position.add hvalue hk, hsame.offset, h.counter.add hvalue hk⟩
        · exact ⟨h.offset.add hvalue hk, hsame.offset, hvalue.mono hbound⟩
    exact ⟨hadvance.position, hadvance.offset, hadvance.counter⟩
  | home w toUpper =>
    rw [Filament.obey]
    split
    · exact ⟨.zero, .zero, hsame.counter⟩
    · exact hsame
  | setPosition w =>
    rw [Filament.obey]
    unfold setPosition
    cases he : w.e with
    | none => exact hsame
    | some e =>
      have hvalue := hi.e e he
      exact ⟨hsame.position, h.position.sub hvalue hk, hvalue.mono hbound⟩
  | _ => exact hsame

theorem Within.perform (h : f.Within k) (hk : k + 1 < 2 ^ 24) (m : Motion) (uploading : Bool)
    {op : Operation} (hop : op.Modest) : (f.perform m uploading op).Within (k + 1) := by
  have hsame := h.mono (Nat.le_succ k)
  cases op with
  | send cmd =>
    change (f.respond m (Tracker.response uploading cmd)).Within (k + 1)
    cases hr : Tracker.response uploading cmd with
    | obey i =>
      rw [Tracker.eq_instruction_of_response hr]
      exact h.obey hk m (Words.Modest.instruction hop)
    | _ => exact hsame
  | receive line =>
    refine ⟨?_, hsame.offset, hsame.counter⟩
    change Double.Within (k + 1) ((Status.number? "E" (Status.tokens line)).getD f.position)
    cases he : Status.number? "E" (Status.tokens line) with
    | none => exact hsame.position
    | some e => exact (hop.2 e he).mono (Nat.le_add_left 1 k)
  | reset => exact within_default
  | _ => exact hsame

end Filament

/-- Whether all numbers of a pause are finite. -/
structure Pause.Finite (p : Pause) : Prop where
  position : ∀ a, (p.position.get a).isFinite
  filament : p.filament.isFinite
  feedRate : p.feedRate.isFinite

theorem Pause.finite_iff {p : Pause} : p.Finite ↔ p.position.x.isFinite ∧ p.position.y.isFinite ∧
    p.position.z.isFinite ∧ p.filament.isFinite ∧ p.feedRate.isFinite := by
  constructor
  · intro h
    exact ⟨h.position .x, h.position .y, h.position .z, h.filament, h.feedRate⟩
  · rintro ⟨hx, hy, hz, hfilament, hfeed⟩
    refine ⟨fun a => ?_, hfilament, hfeed⟩
    cases a with
    | x => exact hx
    | y => exact hy
    | z => exact hz

namespace Tracker

structure Within (k : Nat) (t : Tracker) : Prop where
  active : t.ActiveValid
  motion : t.motion.Within k
  filaments : ∀ f ∈ t.filaments, f.Within k
  pause : ∀ p ∈ t.pause, p.Finite

variable {c : Config} {t : Tracker} {k : Nat}

theorem within_start (c : Config) (minimum : Nat) : (start c minimum).Within k where
  active := activeValid_start c minimum
  motion := Motion.within_default
  filaments f hf := filaments_start minimum f hf ▸ Filament.within_default
  pause := nofun

/-- What a pause would capture is twice as large as the numbers it is taken from, at most. -/
theorem Within.capture (h : t.Within k) (hk : k < 2 ^ 23) : t.capture.Finite := by
  have hfilament := h.filaments _ h.active.filament_mem
  refine ⟨fun a => ?_, (hfilament.position.sub hfilament.offset (by omega)).finite,
    h.motion.feedRate⟩
  rw [Tracker.capture, Xyz.get_ofFn]
  exact ((h.motion.position a).sub (h.motion.offset a) (by omega)).finite

theorem Within.perform (hc : c.Modest) (h : t.Within k) (hk : k < 2 ^ 23) {op : Operation}
    (hop : op.Modest) : (t.perform c op).1.Within (k + 1) where
  active := h.active.perform op
  motion := motion_perform (c := c) op ▸ h.motion.perform hc (by omega) t.uploading hop
  filaments f hf := by
    rcases mem_filaments_perform hf with hold | rfl
    · exact (h.filaments f hold).mono (Nat.le_succ k)
    · exact (h.filaments _ h.active.filament_mem).perform (by omega) t.motion t.uploading hop
  pause p hp := by
    by_cases hreset : op = .reset
    · subst hreset
      nomatch hp
    · by_cases hstore : op = .storePause
      · subst hstore
        rw [← Option.some.inj hp]
        exact h.capture hk
      · rw [pause_perform hreset hstore] at hp
        exact h.pause p hp

/-- A run adds at most `2 ^ 1000` for every operation. -/
theorem Within.run (hc : c.Modest) {ops : List Operation} (h : t.Within k)
    (hlength : k + ops.length < 2 ^ 23) (hops : ∀ op ∈ ops, op.Modest) :
    (t.run c ops).Within (k + ops.length) := by
  induction ops generalizing t k with
  | nil => exact h
  | cons op ops ih =>
    obtain ⟨hop, hops⟩ := List.forall_mem_cons.mp hops
    rw [List.length_cons] at hlength ⊢
    have hstep := ih (h.perform hc (by omega) hop) (by omega) hops
    rwa [Nat.add_assoc, Nat.add_comm 1] at hstep

theorem Within.jogWord (h : t.Within k) (hk : k < 2 ^ 23) (axis : Axis) {delta : Float}
    (hdelta : Double.Within 1 delta) : (t.jogWord axis delta).isFinite := by
  cases axis with
  | extruder =>
    have hfilament := h.filaments _ h.active.filament_mem
    rw [Tracker.jogWord]
    split
    · exact hdelta.finite
    · exact (hfilament.counter.add hdelta (by omega)).finite
  | cartesian a =>
    rw [Tracker.jogWord]
    split
    · exact hdelta.finite
    · have hcoordinate := (h.motion.position a).sub (h.motion.offset a) (by omega)
      exact (hcoordinate.add hdelta (by omega)).finite

end Tracker

end PrinterShadow
