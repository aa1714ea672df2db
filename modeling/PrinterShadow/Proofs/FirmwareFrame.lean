import PrinterShadow.Proofs.Double.Whole
import PrinterShadow.Proofs.Tracker.Motion

/-!
The tracker follows a firmware that knows only its own coordinates. Where all numbers are whole and
below `2 ^ 53`, so that no sum is rounded, and where no linear move is stopped by a bound, the
position less the offset is what that firmware has, after every run.
-/

namespace PrinterShadow

open Double

/-- A firmware that knows its coordinates, whether words are taken relatively, and whether it writes
what it is sent into a file. -/
structure Frame where
  coordinate : Xyz Int := .replicate 0
  relative : Bool := false
  uploading : Bool := false
  deriving DecidableEq, Repr

namespace Frame

def moved (w : Words) (f : Frame) : Frame :=
  { f with
    coordinate := .ofFn fun a =>
      match w.xyz.get a with
      | none => f.coordinate.get a
      | some v => if f.relative then f.coordinate.get a + wholeOf v else wholeOf v }

def placed (given : Xyz (Option Float)) (f : Frame) : Frame :=
  { f with
    coordinate := .ofFn fun a =>
      match given.get a with
      | none => f.coordinate.get a
      | some v => wholeOf v }

def homed (c : Config) (w : Words) (goal : Limits → Float) (f : Frame) : Frame :=
  { f with
    coordinate := .ofFn fun a =>
      if w.covers a then wholeOf (goal (c.limits.get a)) else f.coordinate.get a }

def followG (c : Config) (number : Nat) (w : Words) (f : Frame) : Frame :=
  match number with
  | 0 | 1 => f.moved w
  | 28 | 161 => f.homed c w Limits.home
  | 162 => f.homed c w Limits.upper
  | 90 => { f with relative := false }
  | 91 => { f with relative := true }
  | 92 => f.placed w.xyz
  | _ => f

/-- The frame after a command. While it writes a file it obeys only a command with M29. -/
def send (c : Config) (cmd : Command) (f : Frame) : Frame :=
  match cmd.directive with
  | some text => if Command.confirmsHome text then f.homed c {} Limits.home else f
  | none =>
    if f.uploading ∧ cmd.m ≠ some 29 then f
    else
      match cmd.g, cmd.m with
      | some g, _ => f.followG c g.toNat cmd.words
      | none, some m =>
        if m = 28 then { f with uploading := true }
        else if m = 29 then { f with uploading := false }
        else f
      | none, none => f

def reported (line : String) : Xyz (Option Float) :=
  .ofFn fun a => Status.number? (Status.axisKey a) (Status.tokens line)

def perform (c : Config) (op : Operation) (f : Frame) : Frame :=
  match op with
  | .send cmd => f.send c cmd
  | .receive line => f.placed (reported line)
  | .reset => {}
  | .confirmHome => f.homed c {} Limits.home
  | _ => f

def run (c : Config) (ops : List Operation) (f : Frame) : Frame :=
  ops.foldl (fun f op => f.perform c op) f

def obey (c : Config) (f : Frame) : Instruction → Frame
  | .linearMove w => f.moved w
  | .home w toUpper => f.homed c w fun l => if toUpper then l.upper else l.home
  | .setPosition w => f.placed w.xyz
  | .positioning relative => { f with relative }
  | .upload start => { f with uploading := start }
  | _ => f

theorem obey_ofG (c : Config) (f : Frame) (w : Words) (number : Nat) :
    f.obey c (.ofG w number) = f.followG c number w := by
  unfold Instruction.ofG
  split
  case h_9 => simp_all [followG, obey]
  all_goals rfl

theorem obey_ofM (c : Config) (f : Frame) (cmd : Command) (m : UInt16) :
    f.obey c (.ofM cmd m.toNat) =
      if m = 28 then { f with uploading := true }
      else if m = 29 then { f with uploading := false }
      else f := by
  have hm (n : UInt16) : m = n ↔ m.toNat = n.toNat := UInt16.toNat_inj.symm
  rw [if_congr (hm 28) rfl rfl]
  simp only [hm 29]
  unfold Instruction.ofM
  split <;> simp_all [obey]

theorem send_eq (c : Config) (f : Frame) (cmd : Command) :
    f.send c cmd =
      match Tracker.response f.uploading cmd with
      | .confirmHome => f.homed c {} Limits.home
      | .obey instruction => f.obey c instruction
      | _ => f := by
  unfold send Tracker.response
  cases cmd.directive with
  | some text => dsimp only; split <;> rfl
  | none =>
    by_cases hgate : f.uploading ∧ cmd.m ≠ some 29
    · simp [hgate, Command.isGated]
    · have hopen : (f.uploading && cmd.isGated) = false := by
        simpa [Command.isGated] using hgate
      simp only [if_neg hgate, hopen, Bool.false_eq_true, if_false]
      unfold Command.instruction
      cases cmd.g with
      | some g => exact (obey_ofG c f cmd.words g.toNat).symm
      | none =>
        cases cmd.m with
        | some m => exact (obey_ofM c f cmd m).symm
        | none => cases cmd.tool <;> rfl

end Frame

/-- A position and an offset that are whole, with the difference `k`. -/
def Framed (position offset : Float) (k : Int) : Prop :=
  ∃ p o : Int, Whole position p ∧ Whole offset o ∧ k = p - o

namespace Framed

variable {position offset v : Float} {k : Int}

theorem add (h : Framed position offset k) (hv : IsWhole v) (hs : Small (position + v)) :
    Framed (position + v) offset (k + wholeOf v) := by
  obtain ⟨p, o, hp, ho, rfl⟩ := h
  exact ⟨p + wholeOf v, o, hp.of_add hv hs, ho, by omega⟩

theorem replace (h : Framed position offset k) (hv : IsWhole v) (hs : Small (offset + v)) :
    Framed (offset + v) offset (wholeOf v) := by
  obtain ⟨p, o, hp, ho, rfl⟩ := h
  exact ⟨o + wholeOf v, o, ho.of_add hv hs, ho, by omega⟩

theorem report (h : Framed position offset k) (hv : IsWhole v) (hs : Small (v + offset)) :
    Framed (v + offset) offset (wholeOf v) := by
  obtain ⟨p, o, hp, ho, rfl⟩ := h
  exact ⟨wholeOf v + o, o, Whole.of_add hv ho hs, ho, by omega⟩

theorem rename (h : Framed position offset k) (hv : IsWhole v) (hs : Small (position - v)) :
    Framed position (position - v) (wholeOf v) := by
  obtain ⟨p, o, hp, ho, rfl⟩ := h
  exact ⟨p, p - wholeOf v, hp, hp.of_sub hv hs, by omega⟩

theorem goal (hv : IsWhole v) : Framed v 0 (wholeOf v) :=
  ⟨wholeOf v, 0, hv, by decide, by omega⟩

theorem coordinate (h : Framed position offset k) (hs : Small (position - offset)) :
    Whole (position - offset) k := by
  obtain ⟨p, o, hp, ho, rfl⟩ := h
  exact hp.of_sub ho hs

theorem echo (h : Framed position offset k) (hv : Whole v k) : v + offset == position := by
  obtain ⟨p, o, hp, ho, rfl⟩ := h
  rw [← Int.sub_add_cancel p o] at hp
  exact hv.add_beq ho hp

end Framed

def Xyz.GivesWhole (given : Xyz (Option Float)) : Prop :=
  ∀ a, ∀ v ∈ given.get a, IsWhole v

instance (given : Xyz (Option Float)) : Decidable given.GivesWhole :=
  inferInstanceAs (Decidable (∀ _, _))

def Operation.brings : Operation → Xyz (Option Float)
  | .send cmd => cmd.words.xyz
  | .receive line => Frame.reported line
  | _ => .replicate none

/-- The words of a linear move that is not kept back, given whether a file is being uploaded. -/
def Operation.move? (uploading : Bool) : Operation → Option Words
  | .send cmd =>
    match Tracker.response uploading cmd with
    | .obey (.linearMove w) => some w
    | _ => none
  | _ => none

/-- Whether the homes of all axes, and the upper bounds that homing can lead to, are whole. -/
def Config.WholeGoals (c : Config) : Prop :=
  ∀ a, IsWhole (c.limits.get a).home ∧ IsWhole (c.limits.get a).upper

instance (c : Config) : Decidable c.WholeGoals := inferInstanceAs (Decidable (∀ _, _))

namespace Motion

def Small (m : Motion) : Prop :=
  ∀ a, Double.Small (m.position.get a) ∧ Double.Small (m.offset.get a) ∧
    Double.Small (m.coordinate a)

instance (m : Motion) : Decidable m.Small := inferInstanceAs (Decidable (∀ _, _))

def Reaches (c : Config) (m : Motion) (w : Words) : Prop :=
  ∀ a, ¬ (c.limits.get a).Excludes (m.target w a)

instance (c : Config) (m : Motion) (w : Words) : Decidable (m.Reaches c w) :=
  inferInstanceAs (Decidable (∀ _, _))

end Motion

namespace Frame

variable {c : Config} {f : Frame} {m : Motion} {uploading : Bool}

/-- The frame is that of a tracker with this motion. -/
structure Tracks (f : Frame) (m : Motion) (uploading : Bool) : Prop where
  framed : ∀ a, Framed (m.position.get a) (m.offset.get a) (f.coordinate.get a)
  relative : f.relative = m.relative
  uploading : f.uploading = uploading

theorem Tracks.default : ({} : Frame).Tracks {} false where
  framed a := by cases a <;> exact Framed.goal (v := 0) (by decide)
  relative := rfl
  uploading := rfl

theorem Tracks.homed (hc : c.WholeGoals) (h : f.Tracks m uploading) (w : Words) (toUpper : Bool) :
    (f.homed c w fun l => if toUpper then l.upper else l.home).Tracks (m.home c w toUpper)
      uploading where
  framed a := by
    simp only [Frame.homed, Motion.get_position_home, Motion.get_offset_home, Xyz.get_ofFn]
    by_cases hcover : w.covers a
    · simp only [if_pos hcover]
      cases toUpper
      · exact Framed.goal (hc a).1
      · exact Framed.goal (hc a).2
    · simp only [if_neg hcover]
      exact h.framed a
  relative := h.relative
  uploading := h.uploading

theorem Tracks.moved (h : f.Tracks m uploading) {w : Words} (hw : w.xyz.GivesWhole)
    (hreach : m.Reaches c w) (hs : (m.move c w).Small) :
    (f.moved w).Tracks (m.obey c (.linearMove w)) uploading where
  framed a := by
    have hpos : (m.move c w).position.get a = m.target w a := by
      rw [Motion.get_position_move, Limits.clamp_of_not_excludes (hreach a)]
    have hsmall := (hs a).1
    change Framed ((m.move c w).position.get a) (m.offset.get a) _
    rw [hpos] at hsmall ⊢
    specialize hw a
    simp only [Frame.moved, Xyz.get_ofFn, Motion.target, h.relative] at hsmall ⊢
    cases hv : w.xyz.get a with
    | none => exact h.framed a
    | some v =>
      simp only [hv] at hsmall ⊢
      split_ifs with hrel
      · rw [if_pos hrel] at hsmall
        exact (h.framed a).add (hw v hv) hsmall
      · rw [if_neg hrel] at hsmall
        exact (h.framed a).replace (hw v hv) hsmall
  relative := h.relative
  uploading := h.uploading

theorem Tracks.renamed (h : f.Tracks m uploading) {w : Words} (hw : w.xyz.GivesWhole)
    (hs : (m.setPosition w).Small) : (f.placed w.xyz).Tracks (m.setPosition w) uploading where
  framed a := by
    have hsmall := (hs a).2.1
    rw [Motion.get_offset_setPosition] at hsmall ⊢
    simp only [placed, Xyz.get_ofFn, Motion.position_setPosition]
    cases hv : w.xyz.get a with
    | none => exact h.framed a
    | some v =>
      rw [hv] at hsmall
      exact (h.framed a).rename (hw a v hv) hsmall
  relative := h.relative
  uploading := h.uploading

theorem Tracks.reported (h : f.Tracks m uploading) {r : Xyz (Option Float)} (hr : r.GivesWhole)
    (hs : (m.report r).Small) : (f.placed r).Tracks (m.report r) uploading where
  framed a := by
    have hsmall := (hs a).1
    simp only [Motion.report, placed, Xyz.get_ofFn] at hsmall ⊢
    cases hv : r.get a with
    | none => exact h.framed a
    | some v =>
      simp only [hv] at hsmall
      exact (h.framed a).report (hr a v hv) hsmall
  relative := h.relative
  uploading := h.uploading

theorem Tracks.obey (hc : c.WholeGoals) (h : f.Tracks m uploading) {i : Instruction}
    (hi : i.words.xyz.GivesWhole) (hreach : ∀ w, i = .linearMove w → m.Reaches c w)
    (hs : (m.obey c i).Small) :
    (f.obey c i).Tracks (m.obey c i) ((Tracker.Response.obey i).uploading uploading) := by
  cases i with
  | linearMove w => exact h.moved hi (hreach w rfl) hs
  | home w toUpper => exact h.homed hc w toUpper
  | setPosition w => exact h.renamed hi hs
  | positioning relative => exact { h with relative := rfl }
  | upload start => exact { h with uploading := rfl }
  | _ => exact { h with }

/-- What is asked of a step: whole coordinates, no move that a bound stops, and afterwards numbers
below `2 ^ 53`. -/
def ExactStep (c : Config) (t : Tracker) (op : Operation) : Prop :=
  op.brings.GivesWhole ∧ (∀ w ∈ op.move? t.uploading, t.motion.Reaches c w) ∧
    (t.perform c op).1.motion.Small

instance (c : Config) (t : Tracker) (op : Operation) : Decidable (ExactStep c t op) :=
  inferInstanceAs (Decidable (_ ∧ _ ∧ _))

/-- One operation on the tracker is one on the frame. -/
theorem Tracks.perform (hc : c.WholeGoals) {t : Tracker} (h : f.Tracks t.motion t.uploading)
    {op : Operation} (hop : ExactStep c t op) :
    (f.perform c op).Tracks (t.perform c op).1.motion (t.perform c op).1.uploading := by
  obtain ⟨hwhole, hreach, hs⟩ := hop
  rw [Tracker.motion_perform] at hs ⊢
  rw [Tracker.uploading_perform]
  cases op with
  | send cmd =>
    change (t.motion.respond c _).Small at hs
    change (f.send c cmd).Tracks (t.motion.respond c _)
      ((Tracker.response t.uploading cmd).uploading t.uploading)
    rw [send_eq, h.uploading]
    cases hr : Tracker.response t.uploading cmd with
    | confirmHome => exact h.homed hc {} false
    | ignore | gate => exact h
    | obey i =>
      rw [hr] at hs
      refine h.obey hc ?_ (fun w hw => hreach w ?_) hs
      · rw [Tracker.eq_instruction_of_response hr]
        rcases cmd.words_instruction with hw | hw
        · rw [hw]; exact hwhole
        · rw [hw]; decide
      · simp [Operation.move?, hr, hw]
  | receive line => exact h.reported hwhole hs
  | reset => exact Tracks.default
  | confirmHome => exact h.homed hc {} false
  | _ => exact h

theorem Tracks.run (hc : c.WholeGoals) {ops : List Operation} {t : Tracker}
    (h : f.Tracks t.motion t.uploading) (hops : Tracker.Along c (ExactStep c) ops t) :
    (f.run c ops).Tracks (t.run c ops).motion (t.run c ops).uploading := by
  induction ops generalizing f t with
  | nil => exact h
  | cons op ops ih => exact ih (h.perform hc hops.1) hops.2

end Frame

namespace Tracker

variable {c : Config} {minimum : Nat}

theorem small_run {ops : List Operation} (h : Along c (Frame.ExactStep c) ops (start c minimum)) :
    (run c ops (start c minimum)).motion.Small := by
  refine h.invariant (I := fun t => t.motion.Small) (fun t op hop _ => hop.2.2) ?_
  change ({} : Motion).Small
  decide

/-- After every run of exact steps, the position less the offset is the coordinate of the firmware,
and the tracker knows how the firmware takes words and whether it writes a file. A line that reports
the present coordinate leaves the position where it is. -/
theorem coordinate_eq_frame (hc : c.WholeGoals) (minimum : Nat) {ops : List Operation}
    (h : Along c (Frame.ExactStep c) ops (start c minimum)) :
    (∀ a, Whole ((run c ops (start c minimum)).motion.coordinate a)
      ((Frame.run c ops {}).coordinate.get a)) ∧
    (run c ops (start c minimum)).motion.relative = (Frame.run c ops {}).relative ∧
    (run c ops (start c minimum)).uploading = (Frame.run c ops {}).uploading ∧
    ∀ line, (∀ a, ∀ v ∈ (Frame.reported line).get a,
        v == (run c ops (start c minimum)).motion.coordinate a) →
      ∀ a, (((run c ops (start c minimum)).receive line).1.motion.position.get a ==
        (run c ops (start c minimum)).motion.position.get a) = true := by
  have htracks := Frame.Tracks.default.run (t := start c minimum) hc h
  have hcoord (a : Cartesian) := (htracks.framed a).coordinate (small_run h a).2.2
  refine ⟨hcoord, htracks.relative.symm, htracks.uploading.symm, fun line hline a => ?_⟩
  generalize run c ops (start c minimum) = t at *
  have hreceive : (t.receive line).1.motion = t.motion.report (Frame.reported line) :=
    motion_apply _
  rw [hreceive, Motion.report, Xyz.get_ofFn]
  specialize hline a
  cases hv : (Frame.reported line).get a with
  | none =>
    obtain ⟨p, o, hp, -, -⟩ := htracks.framed a
    exact hp.beq hp
  | some v => exact (htracks.framed a).echo (.of_beq (hline v hv) (hcoord a))

/-- A new coordinate, a relative move, one that goes into a file, and a report. -/
def relabelling : List Operation :=
  [.send { g := some 92, words.xyz := ⟨some 10, none, some (-5)⟩ }, .send { g := some 91 },
    .send { g := some 1, words.xyz := ⟨some 3, some 40, none⟩ }, .send { m := some 28 },
    .send { g := some 1, words.xyz := ⟨some 9, none, none⟩ }, .send { m := some 29 },
    .receive "ok X:15 Y:2"]

theorem coordinate_of_relabelling :
    Whole ((run {} relabelling (start {} 0)).motion.coordinate .x) 15 ∧
      Whole ((run {} relabelling (start {} 0)).motion.coordinate .y) 2 ∧
      Whole ((run {} relabelling (start {} 0)).motion.coordinate .z) (-5) := by
  have hframe : Frame.run {} relabelling {} = ⟨⟨15, 2, -5⟩, true, false⟩ := by decide +kernel
  have hexact : Along {} (Frame.ExactStep {}) relabelling (start {} 0) := by decide +kernel
  have hrun := coordinate_eq_frame (by decide +kernel) 0 hexact
  rw [hframe] at hrun
  exact ⟨hrun.1 .x, hrun.1 .y, hrun.1 .z⟩

end Tracker

end PrinterShadow
