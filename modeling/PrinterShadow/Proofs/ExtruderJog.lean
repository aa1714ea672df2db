import PrinterShadow.Proofs.Resume
import PrinterShadow.Proofs.Tracker.Filaments

/-!
Jogging the extruder. In absolute extrusion a jog is written from the firmware's counter and
followed from the offset, so it moves the filament by its delta where the counter is the position
less the offset. Moves, new coordinates, tool changes and starting over keep the two in step;
homing the extruder does not touch the counter, and keeps them in step only where it is zero.
-/

namespace PrinterShadow

open Double

/-- Whether an instruction homes the extruder, which leaves its counter as it is. -/
def Instruction.homesFilament : Instruction → Bool
  | .home w toUpper => !toUpper && w.e.isSome
  | _ => false

def Operation.homesFilament (uploading : Bool) : Operation → Bool
  | .send cmd =>
    match Tracker.response uploading cmd with
    | .obey i => i.homesFilament
    | _ => false
  | _ => false

def Operation.sentFilament? : Operation → Option Float
  | .send cmd => cmd.words.e
  | _ => none

namespace Filament

variable {f : Filament} {m : Motion} {p o k : Int}

/-- The position, the offset and the counter are these whole numbers. -/
structure Counts (f : Filament) (p o k : Int) : Prop where
  position : Whole f.position p
  offset : Whole f.offset o
  counter : Whole f.counter k

def Small (f : Filament) : Prop :=
  Double.Small f.position ∧ Double.Small f.offset ∧ Double.Small f.counter

instance (f : Filament) : Decidable f.Small := inferInstanceAs (Decidable (_ ∧ _ ∧ _))

def IsWhole (f : Filament) : Prop := ∃ p o k, f.Counts p o k

/-- The counter is the position less the offset. -/
def InStep (f : Filament) : Prop := ∃ p o, f.Counts p o (p - o)

theorem InStep.default : ({} : Filament).InStep :=
  ⟨0, 0, by decide, by decide, by decide⟩

theorem InStep.isWhole (h : f.InStep) : f.IsWhole := by
  obtain ⟨p, o, h⟩ := h
  exact ⟨p, o, p - o, h⟩

theorem InStep.counter_eq (h : f.InStep) (hcounts : f.Counts p o k) : k = p - o := by
  obtain ⟨p', o', h⟩ := h
  rw [hcounts.counter.unique h.counter, hcounts.position.unique h.position,
    hcounts.offset.unique h.offset]

theorem Counts.settle (h : f.Counts p o k) : f.settle.Counts p o k := ⟨h.1, h.2, h.3⟩

theorem Counts.advance (h : f.Counts p o k) (relative : Bool) {e : Float} (he : Double.IsWhole e)
    (hs : (f.advance relative (some e)).Small) :
    ∃ p' k', (f.advance relative (some e)).Counts p' o k' ∧ (k = p - o → k' = p' - o) := by
  cases relative with
  | true =>
    refine ⟨p + wholeOf e, k + wholeOf e, ?_, by omega⟩
    exact ⟨h.position.of_add he hs.1, h.offset, h.counter.of_add he hs.2.2⟩
  | false =>
    refine ⟨o + wholeOf e, wholeOf e, ?_, by omega⟩
    exact ⟨h.offset.of_add he hs.1, h.offset, he⟩

theorem Counts.setPosition (h : f.Counts p o k) {e : Float} (he : Double.IsWhole e)
    (hs : (f.setPosition (some e)).Small) :
    (f.setPosition (some e)).Counts p (p - wholeOf e) (wholeOf e) :=
  ⟨h.position, h.position.of_sub he hs.2.1, he⟩

theorem Counts.home (h : f.Counts p o k) : f.home.Counts 0 0 k :=
  ⟨by change Whole 0 0; decide, by change Whole 0 0; decide, h.counter⟩

/-- An instruction keeps the numbers of a record whole, and the counter in step unless it homes the
extruder with the counter elsewhere than at zero. -/
theorem Counts.obey (h : f.Counts p o k) {i : Instruction}
    (he : ∀ e ∈ i.words.e, Double.IsWhole e) (hs : (f.obey m i).Small) :
    ∃ p' o' k', (f.obey m i).Counts p' o' k' ∧
      (k = p - o → (i.homesFilament → k = 0) → k' = p' - o') := by
  have hsame : ∃ p' o' k', f.Counts p' o' k' ∧
      (k = p - o → (i.homesFilament → k = 0) → k' = p' - o') :=
    ⟨p, o, k, h, fun hk _ => hk⟩
  cases i with
  | linearMove w =>
    rw [Filament.obey] at hs ⊢
    change ∀ e ∈ w.e, Double.IsWhole e at he
    cases hw : w.e with
    | none => exact ⟨p, o, k, h.settle, fun hk _ => hk⟩
    | some e =>
      rw [hw] at hs
      obtain ⟨p', k', hcounts, hstep⟩ := h.advance m.movesFilamentRelatively (he e hw) hs
      exact ⟨p', o, k', hcounts.settle, fun hk _ => hstep hk⟩
  | home w toUpper =>
    rw [Filament.obey]
    split_ifs with hhome
    · exact ⟨0, 0, k, h.home, fun _ hk => hk hhome⟩
    · exact hsame
  | setPosition w =>
    rw [Filament.obey] at hs ⊢
    change ∀ e ∈ w.e, Double.IsWhole e at he
    cases hw : w.e with
    | none => exact hsame
    | some e =>
      rw [hw] at hs
      exact ⟨p, p - wholeOf e, wholeOf e, h.setPosition (he e hw) hs, fun _ _ => by omega⟩
  | _ => exact hsame

theorem Counts.perform (h : f.Counts p o k) {uploading : Bool} {op : Operation}
    (he : ∀ e ∈ op.sentFilament?, Double.IsWhole e) (hr : op.reportedFilament? = none)
    (hs : (f.perform m uploading op).Small) :
    ∃ p' o' k', (f.perform m uploading op).Counts p' o' k' ∧
      (k = p - o → (op.homesFilament uploading → k = 0) → k' = p' - o') := by
  cases op with
  | send cmd =>
    rw [Filament.perform] at hs ⊢
    simp only [Operation.homesFilament]
    cases hresponse : Tracker.response uploading cmd with
    | obey i =>
      rw [hresponse] at hs
      refine h.obey ?_ hs
      rw [Tracker.eq_instruction_of_response hresponse]
      rcases cmd.words_instruction with hw | hw
      · rwa [hw]
      · rw [hw]
        exact nofun
    | _ => exact ⟨p, o, k, h, fun hk _ => hk⟩
  | receive line =>
    change Status.number? "E" (Status.tokens line) = none at hr
    rw [Filament.perform, hr]
    exact ⟨p, o, k, h, fun hk _ => hk⟩
  | reset =>
    obtain ⟨p', o', hcounts⟩ := InStep.default
    exact ⟨p', o', p' - o', hcounts, fun _ _ => rfl⟩
  | _ => exact ⟨p, o, k, h, fun hk _ => hk⟩

end Filament

namespace Tracker

variable {c : Config} {t u : Tracker}

/-- What is asked of a step: a whole word for the extruder, no report of its position, and
afterwards numbers below `2 ^ 53`. -/
def FeedsWhole (c : Config) (t : Tracker) (op : Operation) : Prop :=
  (∀ e ∈ op.sentFilament?, IsWhole e) ∧ op.reportedFilament? = none ∧
    ∀ f ∈ (t.perform c op).1.filaments, f.Small

instance (c : Config) (t : Tracker) (op : Operation) : Decidable (FeedsWhole c t op) :=
  inferInstanceAs (Decidable (_ ∧ _ ∧ _))

/-- The extruder is homed only with its counter at zero. -/
def KeepsCounter (t : Tracker) (op : Operation) : Prop :=
  op.homesFilament t.uploading → t.activeExtruder.filament.counter == 0

instance (t : Tracker) (op : Operation) : Decidable (KeepsCounter t op) :=
  inferInstanceAs (Decidable (_ → _))

theorem isWhole_run {minimum : Nat} {ops : List Operation}
    (h : Along c (FeedsWhole c) ops (start c minimum)) :
    ∀ f ∈ (run c ops (start c minimum)).filaments, f.IsWhole := by
  refine forall_filaments_run h Filament.InStep.default.isWhole fun t op hop hwhole hmem => ?_
  obtain ⟨he, hr, hs⟩ := hop
  obtain ⟨p, o, k, hcounts⟩ := hwhole
  obtain ⟨p', o', k', hcounts', -⟩ := hcounts.perform he hr (hs _ hmem)
  exact ⟨p', o', k', hcounts'⟩

/-- Where the extruder is homed only with its counter at zero, every counter is its position less
its offset after a run. -/
theorem inStep_run {minimum : Nat} {ops : List Operation}
    (h : Along c (FeedsWhole c) ops (start c minimum))
    (hkeep : Along c KeepsCounter ops (start c minimum)) :
    ∀ f ∈ (run c ops (start c minimum)).filaments, f.InStep := by
  refine forall_filaments_run (h.and hkeep) .default fun t op hop hin hmem => ?_
  obtain ⟨⟨he, hr, hs⟩, hzero⟩ := hop
  obtain ⟨p, o, hcounts⟩ := hin
  obtain ⟨p', o', k', hcounts', hstep⟩ := hcounts.perform he hr (hs _ hmem)
  -- of all instructions only homing leaves a counter that the new position does not follow
  obtain rfl := hstep rfl fun hhome =>
    hcounts.counter.unique (.of_beq (hzero hhome) (by decide))
  exact ⟨p', o', hcounts'⟩

/-- What the text of an extruder's jog asks for. -/
theorem instruction_jogLine (t : Tracker) (delta feed : Float) :
    (t.jogLine .extruder delta feed).instruction =
      .linearMove
        { e := (Fixed.ofFloat 2 (t.jogWord .extruder delta)).toFloat?
          feed := (Fixed.ofFloat 0 feed).toFloat? } := by
  simp [jogLine, Gcode.Line.instruction, Gcode.Line.command, Gcode.Line.number?, Gcode.Word.ofFloat,
    Axis.letter, Xyz.ofFn, Cartesian.letter, Instruction.ofG]

/-- The text of an extruder's jog, followed outside an upload, advances the filament by the word
that is written. -/
theorem run_jogCommand (hup : t.uploading = false) (hvalid : t.ActiveValid) {delta : Float}
    {n : Int} (hword : Whole (t.jogWord .extruder delta) n) (feed : Float) :
    ∃ e, Whole e n ∧
      (run c [.send (Gcode.read (t.jogCommand .extruder delta feed))] t).active = t.active ∧
      (run c [.send (Gcode.read (t.jogCommand .extruder delta feed))] t).activeExtruder.filament =
        (t.activeExtruder.filament.advance t.motion.movesFilamentRelatively (some e)).settle := by
  obtain ⟨e, he, hwhole⟩ := Fixed.toFloat?_ofFloat hword 2
  obtain ⟨hhead, hactive⟩ := run_lines (c := c) [t.jogLine .extruder delta feed] hup hvalid
  rw [jogCommand, Gcode.Line.read_render (plain_jogLine _ delta feed)]
  refine ⟨e, hwhole, hactive, (congrArg Prod.snd hhead).trans ?_⟩
  simp only [List.map_cons, List.map_nil, List.foldl_cons, List.foldl_nil, headAfter,
    instruction_jogLine, Filament.obey, he]
  rfl

/-- Where a jog leads: on by the delta where extrusion is relative, and otherwise from the offset by
the counter and the delta, wherever the position is. -/
theorem position_jogCommand (hup : t.uploading = false) (hvalid : t.ActiveValid) {p o k : Int}
    (hcounts : t.activeExtruder.filament.Counts p o k) {delta : Float} (hdelta : IsWhole delta)
    (hword : Small (t.jogWord .extruder delta)) (feed : Float)
    (hu : run c [.send (Gcode.read (t.jogCommand .extruder delta feed))] t = u)
    (hsum : Small u.activeExtruder.filament.position) :
    u.active = t.active ∧ Whole u.activeExtruder.filament.position
      (if t.motion.movesFilamentRelatively then p + wholeOf delta
        else o + (k + wholeOf delta)) := by
  cases hrel : t.motion.movesFilamentRelatively with
  | true =>
    have hwritten : Whole (t.jogWord .extruder delta) (wholeOf delta) := by
      rw [jogWord, if_pos hrel]
      exact hdelta
    obtain ⟨e, he, hactive, hfilament⟩ := run_jogCommand (c := c) hup hvalid hwritten feed
    rw [hu] at hactive hfilament
    rw [hfilament, hrel] at hsum ⊢
    exact ⟨hactive, hcounts.position.of_add he hsum⟩
  | false =>
    have hwritten : Whole (t.jogWord .extruder delta) (k + wholeOf delta) := by
      rw [jogWord, if_neg (by simp [hrel])] at hword ⊢
      exact hcounts.counter.of_add hdelta hword
    obtain ⟨e, he, hactive, hfilament⟩ := run_jogCommand (c := c) hup hvalid hwritten feed
    rw [hu] at hactive hfilament
    rw [hfilament, hrel] at hsum ⊢
    exact ⟨hactive, hcounts.offset.of_add he hsum⟩

/-- A jog of the extruder moves its filament by the delta just where extrusion is relative or the
counter is the position less the offset, as it is after every run that homes the extruder only with
its counter at zero. -/
theorem position_after_jog {minimum : Nat} {ops : List Operation} {delta : Float}
    (hops : Along c (FeedsWhole c) ops (start c minimum)) (ht : run c ops (start c minimum) = t)
    (hup : t.uploading = false) (hdelta : IsWhole delta) (hword : Small (t.jogWord .extruder delta))
    (feed : Float) (hu : run c [.send (Gcode.read (t.jogCommand .extruder delta feed))] t = u)
    (hsum : Small u.activeExtruder.filament.position) :
    u.active = t.active ∧ ∃ p o k : Int, t.activeExtruder.filament.Counts p o k ∧
      (Whole u.activeExtruder.filament.position (p + wholeOf delta) ↔
        t.motion.movesFilamentRelatively = true ∨ k = p - o) ∧
      (Along c KeepsCounter ops (start c minimum) → k = p - o) := by
  have hvalid : t.ActiveValid := by
    rw [← ht]
    exact (activeValid_start c minimum).run ops
  obtain ⟨p, o, k, hcounts⟩ : t.activeExtruder.filament.IsWhole := by
    have hwhole := isWhole_run hops
    rw [ht] at hwhole
    exact hwhole _ hvalid.filament_mem
  obtain ⟨hactive, hposition⟩ := position_jogCommand hup hvalid hcounts hdelta hword feed hu hsum
  refine ⟨hactive, p, o, k, hcounts, ?_, fun hkeep => ?_⟩
  · cases hrel : t.motion.movesFilamentRelatively with
    | true =>
      rw [hrel, if_pos rfl] at hposition
      exact iff_of_true hposition (.inl rfl)
    | false =>
      rw [hrel, if_neg nofun] at hposition
      -- the jog ends at `o + (k + delta)`, which is `p + delta` for no other counter
      refine ⟨fun h => .inr ?_, fun h => ?_⟩
      · have hsame := hposition.unique h
        omega
      · obtain rfl := h.resolve_left nofun
        have hsame : o + (p - o + wholeOf delta) = p + wholeOf delta := by omega
        rwa [hsame] at hposition
  · have hstep := inStep_run hops hkeep
    rw [ht] at hstep
    exact (hstep _ hvalid.filament_mem).counter_eq hcounts

/-- A new coordinate, another tool that is homed where it starts, and a relative move. -/
def alternatingTools : List Operation :=
  [.send { g := some 1, words.e := some 4 }, .send { g := some 92, words.e := some 1 },
    .send { tool := some 1 }, .send { g := some 28, words.e := some 0 },
    .send { g := some 1, words.e := some 7 }, .send { tool := some 0 }, .send { m := some 83 },
    .send { g := some 1, words.e := some 2 }, .send { m := some 82 }]

theorem position_after_alternatingTools :
    ∃ p : Int, Whole (run {} alternatingTools (start {} 0)).activeExtruder.filament.position p ∧
      Whole (run {} [.send (Gcode.read
          ((run {} alternatingTools (start {} 0)).jogCommand .extruder (-3) 240))]
        (run {} alternatingTools (start {} 0))).activeExtruder.filament.position (p - 3) := by
  have hops : Along {} (FeedsWhole {}) alternatingTools (start {} 0) := by decide +kernel
  have hwhole : IsWhole (-3) := by decide +kernel
  obtain ⟨-, p, o, k, hcounts, hexact, hkept⟩ := position_after_jog hops rfl (by decide +kernel)
    hwhole (by decide +kernel) 240 rfl (by decide +kernel)
  have hafter := hexact.mpr (.inr (hkept (by decide +kernel)))
  have hdelta : wholeOf (-3) = -3 := by decide +kernel
  rw [hdelta, ← Int.sub_eq_add_neg] at hafter
  exact ⟨p, hcounts.position, hafter⟩

/-- Homing with the counter at 4. -/
def homedExtruder : List Operation :=
  [.send { g := some 1, words.e := some 4 }, .send { g := some 28, words.e := some 0 }]

/-- After homing the extruder, a jog by 1 in absolute extrusion moves it by 5. -/
theorem position_after_homedExtruder :
    Along {} (FeedsWhole {}) homedExtruder (start {} 0) ∧
      (run {} homedExtruder (start {} 0)).uploading = false ∧
      Whole (run {} homedExtruder (start {} 0)).activeExtruder.filament.position 0 ∧
      (run {} homedExtruder (start {} 0)).jogCommand .extruder 1 100 = "G1 E5.00 F100" ∧
      Whole (run {} [.send (Gcode.read
          ((run {} homedExtruder (start {} 0)).jogCommand .extruder 1 100))]
        (run {} homedExtruder (start {} 0))).activeExtruder.filament.position 5 := by
  decide +kernel

end Tracker

end PrinterShadow
