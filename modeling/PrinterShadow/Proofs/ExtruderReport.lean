import PrinterShadow.Proofs.Command.Instruction
import PrinterShadow.Proofs.Double.Whole
import PrinterShadow.Proofs.Tracker.Filaments

/-!
Reports of the extruder's position. A reported number is taken for the logical position, the offset
not added, so a pause that is captured next is short of the report by the offset: it holds what was
reported where the offset is zero, as it is while no command gives the extruder a new coordinate.
-/

namespace PrinterShadow

open Double

/-- Whether an operation gives the extruder's position a new coordinate. -/
def Operation.renamesFilament : Operation → Bool
  | .send cmd => cmd.g = some 92 && cmd.words.e.isSome
  | _ => false

namespace Filament

variable {f : Filament} {m : Motion}

theorem offset_advance (relative : Bool) (e : Option Float) :
    (f.advance relative e).offset = f.offset := by
  cases e <;> rfl

theorem offset_obey (h : f.offset = 0) {i : Instruction}
    (hi : ∀ w, i = .setPosition w → w.e = none) : (f.obey m i).offset = 0 := by
  cases i with
  | linearMove w => exact (offset_advance _ _).trans h
  | home w toUpper =>
    rw [obey]
    split_ifs
    · rfl
    · exact h
  | setPosition w =>
    rw [obey, hi w rfl]
    exact h
  | _ => exact h

theorem offset_perform (h : f.offset = 0) {uploading : Bool} {op : Operation}
    (hop : op.renamesFilament = false) : (f.perform m uploading op).offset = 0 := by
  cases op with
  | send cmd =>
    rw [perform]
    cases hresponse : Tracker.response uploading cmd with
    | obey i =>
      refine offset_obey h fun w hw => ?_
      rw [Tracker.eq_instruction_of_response hresponse] at hw
      obtain ⟨hg, rfl⟩ := Command.instruction_eq_setPosition_iff.mp hw
      simpa [Operation.renamesFilament, hg] using hop
    | _ => exact h
  | reset => rfl
  | _ => exact h

end Filament

namespace Tracker

variable {c : Config} {t : Tracker}

theorem offset_run {minimum : Nat} {ops : List Operation}
    (hops : ∀ op ∈ ops, op.renamesFilament = false) :
    ∀ f ∈ (run c ops (start c minimum)).filaments, f.offset = 0 := by
  have halong : Along c (fun _ op => op.renamesFilament = false) ops (start c minimum) :=
    along_of_forall fun op hop _ => hops op hop
  exact forall_filaments_run halong rfl fun t op hop hzero _ => Filament.offset_perform hzero hop

/-- A line that reports the extruder's position replaces the logical position by it. -/
theorem filament_receive (hvalid : t.ActiveValid) {line : String} {v : Float}
    (hv : Status.number? "E" (Status.tokens line) = some v) :
    (t.receive line).1.activeExtruder.filament =
      { t.activeExtruder.filament with position := v } := by
  have hperform := filament_perform (c := {}) hvalid (.receive line) nofun (active_apply _)
  rw [Filament.perform, hv] at hperform
  exact hperform

/-- After a report of the extruder's position, a pause captures what was reported less the offset.
That is what was reported just where the offset is zero, as it is after every run that does not give
the extruder a new coordinate. -/
theorem capture_filament_after_report (c : Config) (minimum : Nat) (ops : List Operation)
    (ht : run c ops (start c minimum) = t) {line : String} {v : Float}
    (hv : Status.number? "E" (Status.tokens line) = some v) (hwhole : IsWhole v)
    (hoffset : IsWhole t.activeExtruder.filament.offset)
    (hs : Small (v - t.activeExtruder.filament.offset)) :
    (t.receive line).1.activeExtruder.filament = { t.activeExtruder.filament with position := v } ∧
      Whole (t.receive line).1.capture.filament
        (wholeOf v - wholeOf t.activeExtruder.filament.offset) ∧
      ((t.receive line).1.capture.filament == v ↔ t.activeExtruder.filament.offset == 0) ∧
      ((∀ op ∈ ops, op.renamesFilament = false) → (t.receive line).1.capture.filament == v) := by
  have hvalid : t.ActiveValid := by
    rw [← ht]
    exact (activeValid_start c minimum).run ops
  have hfilament := filament_receive hvalid hv
  have hcapture : (t.receive line).1.capture.filament =
      v - t.activeExtruder.filament.offset := by
    rw [capture, hfilament]
  have hiff := hwhole.sub_beq_self_iff hoffset hs
  rw [hcapture]
  refine ⟨hfilament, hwhole.of_sub hoffset hs, hiff, fun hops => hiff.mpr ?_⟩
  have hzero : ∀ f ∈ (run c ops (start c minimum)).filaments, f.offset = 0 := offset_run hops
  rw [ht] at hzero
  rw [hzero _ hvalid.filament_mem]
  rfl

/-- The position is 10 and gets the coordinate 0. -/
def renamedFilament : List Operation :=
  [.send { g := some 1, words.e := some 10 }, .send { g := some 92, words.e := some 0 }]

theorem capture_filament_after_renamedFilament :
    Whole ((run {} renamedFilament (start {} 0)).receive "ok X:3 E:12").1.capture.filament 2 := by
  have hread : Status.number? "E" (Status.tokens "ok X:3 E:12") = some 12 := by decide +kernel
  have hreport := capture_filament_after_report {} 0 renamedFilament rfl hread
    (by decide +kernel) (by decide +kernel) (by decide +kernel)
  have hdiff : wholeOf 12 -
      wholeOf (run {} renamedFilament (start {} 0)).activeExtruder.filament.offset = 2 := by
    decide +kernel
  rw [hdiff] at hreport
  exact hreport.2.1

/-- The firmware echoes the new coordinate. -/
def echoedFilament : List Operation := renamedFilament ++ [.receive "ok E:0"]

/-- The echo moves the logical position from 10 to 0, and a pause captures -10 in place of the 0
that was reported. -/
theorem capture_filament_after_echo :
    Status.number? "E" (Status.tokens "ok E:0") = some 0 ∧
      Whole (run {} renamedFilament (start {} 0)).activeExtruder.filament.position 10 ∧
      Whole (run {} renamedFilament (start {} 0)).capture.filament 0 ∧
      Whole (run {} echoedFilament (start {} 0)).activeExtruder.filament.position 0 ∧
      Whole (run {} echoedFilament (start {} 0)).capture.filament (-10) := by
  decide +kernel

end Tracker

end PrinterShadow
