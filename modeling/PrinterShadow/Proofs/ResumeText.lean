import PrinterShadow.Proofs.Decimal.Written
import PrinterShadow.Proofs.Resume
import PrinterShadow.Proofs.Tracker.Growth
import PrinterShadow.Proofs.Tracker.History

/-!
The text that resumes a print. After every run it is that of the pause answered last since the run
last started over, and nothing that happened before or after that pause shows in it; all that it
takes from the configuration are the jog speeds. Its numerals are as near the captured numbers as
their places allow.
-/

namespace PrinterShadow

open Double (value)
open Numeral (Near)

namespace Pause

/-- The text that resumes a print from a pause, at two jog speeds. -/
def text (xySpeed zSpeed : Float) (p : Pause) : List String :=
  (p.lines { xyJogSpeed := xySpeed, zJogSpeed := zSpeed }).map Gcode.Line.render

variable {p : Pause} {xySpeed zSpeed : Float}

theorem text_eq : p.text xySpeed zSpeed =
    ["G90",
      s!"G1 X{fixedText 2 p.position.x} Y{fixedText 2 p.position.y} F{fixedText 0 (xySpeed * 60)}",
      s!"G1 Z{fixedText 2 p.position.z} F{fixedText 0 (zSpeed * 60)}",
      s!"G92 E{fixedText 4 p.filament}"] ++
    (if p.relative then ["G91"] else []) ++
    [s!"G1 F{fixedText 0 p.feedRate}"] := by
  have h90 : Nat.toDigits 10 90 = ['9', '0'] := by decide
  have h91 : Nat.toDigits 10 91 = ['9', '1'] := by decide
  have h92 : Nat.toDigits 10 92 = ['9', '2'] := by decide
  have h1 : Nat.toDigits 10 1 = ['1'] := by decide
  have htext (s : String) : toString s = s := rfl
  cases hrelative : p.relative <;>
    simp [text, lines, hrelative, ← String.toList_inj, Gcode.Line.render, Gcode.Line.chars,
      Gcode.Word.ofFloat, fixedText, h90, h91, h92, h1, htext]

/-- The text of a pause by its numerals: how near each is to the number it stands for. The rates of
the two moves are bound to theirs only if those are finite. -/
inductive Image (xyRate zRate : Float) (p : Pause) : List String → Prop
  | intro {x y z e xyFeed zFeed feed : String}
    (x_near : Near (1 / 200) (value p.position.x) x)
    (y_near : Near (1 / 200) (value p.position.y) y)
    (z_near : Near (1 / 200) (value p.position.z) z)
    (e_near : Near (1 / 20000) (value p.filament) e)
    (xyFeed_near : xyRate.isFinite → Near (1 / 2) (value xyRate) xyFeed)
    (zFeed_near : zRate.isFinite → Near (1 / 2) (value zRate) zFeed)
    (feed_near : Near (1 / 2) (value p.feedRate) feed) :
    Image xyRate zRate p
      (["G90", s!"G1 X{x} Y{y} F{xyFeed}", s!"G1 Z{z} F{zFeed}", s!"G92 E{e}"] ++
        (if p.relative then ["G91"] else []) ++ [s!"G1 F{feed}"])

theorem Finite.image_text (h : p.Finite) :
    p.Image (xySpeed * 60) (zSpeed * 60) (p.text xySpeed zSpeed) := by
  have hplaces {x : Float} (hx : x.isFinite) : Near (1 / 200) (value x) (fixedText 2 x) := by
    convert near_fixedText hx 2 using 1
    norm_num
  have hwhole {x : Float} (hx : x.isFinite) : Near (1 / 2) (value x) (fixedText 0 x) := by
    convert near_fixedText hx 0 using 1
    norm_num
  have hfilament : Near (1 / 20000) (value p.filament) (fixedText 4 p.filament) := by
    convert near_fixedText h.filament 4 using 1
    norm_num
  rw [text_eq]
  exact .intro (hplaces (h.position .x)) (hplaces (h.position .y)) (hplaces (h.position .z))
    hfilament hwhole hwhole (hwhole h.feedRate)

end Pause

/-- The pause that a step answers. -/
def Step.paused? (c : Config) (s : Step) : Option Pause :=
  match (s.before.perform c s.op).2 with
  | .paused p => some p
  | _ => none

theorem Step.paused?_eq_none_iff {c : Config} {s : Step} :
    s.paused? c = none ↔ s.op ≠ .storePause := by
  obtain ⟨t, op⟩ := s
  cases op <;> simp [paused?, Tracker.perform]

namespace Tracker

variable {c : Config} {t : Tracker}

theorem resumeCommands_eq :
    t.resumeCommands c = t.pause.elim [] (Pause.text c.xyJogSpeed c.zJogSpeed) := by
  rw [resumeCommands, resumeLines]
  cases t.pause <;> rfl

/-- What a run keeps for resuming is the pause answered last since it started over. -/
theorem pause_run_eq (minimum : Nat) (ops : List Operation) :
    (run c ops (start c minimum)).pause =
      (sinceReset c ops (start c minimum)).findSome? (Step.paused? c) := by
  refine sinceReset_latest Tracker.pause id rfl (fun _ => rfl) (fun s hop => ?_) ops
  by_cases hstore : s.op = .storePause
  · obtain ⟨t, op⟩ := s
    subst hstore
    rfl
  · rw [Step.paused?_eq_none_iff.mpr hstore]
    exact pause_perform hop hstore

/-- After every run the text that resumes the print is a function of the pause answered last since
the run started over, and of the jog speeds; there is none where there was no pause since. If the
captured numbers are finite, it is the image of the pause. -/
theorem resumeCommands_run (c : Config) (minimum : Nat) (ops : List Operation) :
    let steps := sinceReset c ops (start c minimum)
    let text := (run c ops (start c minimum)).resumeCommands c
    text = (steps.findSome? (Step.paused? c)).elim [] (Pause.text c.xyJogSpeed c.zJogSpeed) ∧
      (text = [] ↔ ∀ s ∈ steps, s.op ≠ .storePause) ∧
      ∀ p, steps.findSome? (Step.paused? c) = some p → p.Finite →
        p.Image (c.xyJogSpeed * 60) (c.zJogSpeed * 60) text := by
  intro steps text
  have htext : text =
      (steps.findSome? (Step.paused? c)).elim [] (Pause.text c.xyJogSpeed c.zJogSpeed) := by
    rw [← pause_run_eq]
    exact resumeCommands_eq
  refine ⟨htext, ?_, fun p hp hfinite => ?_⟩
  · have hnone : steps.findSome? (Step.paused? c) = none ↔ ∀ s ∈ steps, s.op ≠ .storePause := by
      simp only [List.findSome?_eq_none_iff, Step.paused?_eq_none_iff]
    rw [← hnone, htext]
    cases steps.findSome? (Step.paused? c) with
    | none => exact iff_of_true rfl rfl
    | some p => exact iff_of_false (by simp [Pause.text_eq]) nofun
  · rw [htext, hp]
    exact hfinite.image_text

/-- A print paused at ties, in relative positioning; much of what was captured changes then. -/
def overtakenPause : List Operation :=
  [.send { g := some 1, words := { xyz := ⟨some 0.125, some 12.345, none⟩, feed := some 1500.5 } },
    .send { g := some 92, words := { xyz := ⟨none, some 20, none⟩, e := some 0.00005 } },
    .send { g := some 91 }, .storePause, .send { g := some 90 },
    .send { g := some 92, words := { xyz := ⟨some 7, none, none⟩, e := some 2 } },
    .send { g := some 28 }, .receive "ok X:5 E:3"]

theorem resumeCommands_overtakenPause :
    (run {} overtakenPause (start {} 0)).resumeCommands {} = ["G90", "G1 X0.12 Y20.00 F6000",
        "G1 Z0.00 F120", "G92 E0.0001", "G91", "G1 F1500"] ∧
      Pause.Image 6000 120 ⟨⟨0.125, 20, 0⟩, 0.00005, 1500.5, true⟩
        ((run {} overtakenPause (start {} 0)).resumeCommands {}) := by
  obtain ⟨htext, -, himage⟩ := resumeCommands_run {} 0 overtakenPause
  have hlatest : (sinceReset {} overtakenPause (start {} 0)).findSome? (Step.paused? {}) =
      some ⟨⟨0.125, 20, 0⟩, 0.00005, 1500.5, true⟩ := by decide +kernel
  have hxy : ({} : Config).xyJogSpeed * 60 = 6000 := by decide +kernel
  have hz : ({} : Config).zJogSpeed * 60 = 120 := by decide +kernel
  have hfinite := himage _ hlatest (Pause.finite_iff.mpr (by decide +kernel))
  rw [hxy, hz] at hfinite
  refine ⟨?_, hfinite⟩
  rw [htext, hlatest]
  decide +kernel

end Tracker

end PrinterShadow
