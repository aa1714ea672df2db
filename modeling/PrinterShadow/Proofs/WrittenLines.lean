import PrinterShadow.Config.Toml
import PrinterShadow.Proofs.Gcode.WellFormed
import PrinterShadow.Proofs.Tracker.Growth

/-!
The lines that are written for the printer: those that resume a print, and jog moves. They are
well formed just where the numbers in them are finite. What a run captures is finite unless
something overflows or an infinity is reported; the jog speeds come from the configuration alone,
which may have one that is no number.
-/

namespace PrinterShadow

open Double

namespace Pause

variable {c : Config} {p : Pause}

theorem regular_of_mem_lines {line : Gcode.Line} (h : line ∈ p.lines c) : line.Regular := by
  refine ⟨plain_of_mem_lines h, ?_, ?_⟩ <;> unfold lines at h <;> revert line
  · cases p.relative <;> simp [Gcode.Word.ofFloat]
  · cases p.relative <;> simp

/-- The lines of a pause are well formed where all that is written in them is finite. -/
theorem forall_wellFormed_lines : (∀ line ∈ p.lines c, Gcode.isWellFormed line.render) ↔
    p.Finite ∧ (c.xyJogSpeed * 60).isFinite ∧ (c.zJogSpeed * 60).isFinite := by
  have hfinite : (∀ line ∈ p.lines c, Gcode.isWellFormed line.render) ↔
      ∀ line ∈ p.lines c, (line.words.all fun w => w.value.isFinite) = true :=
    forall₂_congr fun line hline => by
      rw [Gcode.Line.isWellFormed_render (regular_of_mem_lines hline)]
  rw [hfinite, finite_iff]
  unfold lines
  cases p.relative <;> simp [Gcode.Word.ofFloat, Fixed.isFinite_ofFloat] <;> tauto

/-- The feed words of the two lines that restore the position come from the jog speeds. -/
theorem forall_positive_feeds :
    (∀ line ∈ ((p.lines c).drop 1).take 2, Gcode.hasPositiveFeed line.render) ↔
      1 / 2 < value (c.xyJogSpeed * 60) ∧ 1 / 2 < value (c.zJogSpeed * 60) := by
  have hplain : ∀ line ∈ ((p.lines c).drop 1).take 2, line.Plain := fun line hline =>
    plain_of_mem_lines (List.mem_of_mem_drop (List.mem_of_mem_take hline))
  rw [← Fixed.isPositive_chars_ofFloat, ← Fixed.isPositive_chars_ofFloat]
  have hfeeds : (∀ line ∈ ((p.lines c).drop 1).take 2, Gcode.hasPositiveFeed line.render) ↔
      ∀ line ∈ ((p.lines c).drop 1).take 2, ((line.words.find? fun w => w.letter = 'F').any
        fun w => Gcode.isPositive w.value.chars) = true :=
    forall₂_congr fun line hline => by rw [Gcode.Line.hasPositiveFeed_render (hplain line hline)]
  rw [hfeeds]
  simp [lines, Gcode.Word.ofFloat]

end Pause

namespace Tracker

variable {c : Config} {t : Tracker}

theorem isJog_jogCommand (axis : Axis) (delta feed : Float) :
    Gcode.isJog axis (t.jogCommand axis delta feed) =
      ((t.jogWord axis delta).isFinite && feed.isFinite) := by
  have hfields : (t.jogLine axis delta feed).fields =
      [['G', '1'], axis.letter :: (Fixed.ofFloat 2 (t.jogWord axis delta)).chars,
        'F' :: (Fixed.ofFloat 0 feed).chars] :=
    congrArg (· :: _) (show 'G' :: Nat.toDigits 10 1 = ['G', '1'] by decide)
  rw [Gcode.isJog, jogCommand, Gcode.Line.render, String.toList_ofList,
    Gcode.Line.splitOn_chars (plain_jogLine axis delta feed), hfields]
  change (decide (axis.letter = axis.letter) && _ && _) = _
  rw [decide_eq_true rfl, Bool.true_and, Fixed.hasPlaces_chars_ofFloat,
    Fixed.hasPlaces_chars_ofFloat]

/-- The lines that resume a print are well formed where the captured numbers are finite and both jog
speeds are, per minute; the feed words of the moves are positive where these are not rounded to
zero. A jog line is well formed where its word is finite. If the limits, the words and the reported
coordinates have a common bound, what a run leads to is finite. -/
theorem lines_written (minimum : Nat) {ops : List Operation}
    (ht : run c ops (start c minimum) = t) :
    ((∀ line ∈ t.resumeCommands c, Gcode.isWellFormed line) ↔ ∀ p ∈ t.pause,
      p.Finite ∧ (c.xyJogSpeed * 60).isFinite ∧ (c.zJogSpeed * 60).isFinite) ∧
    ((∀ line ∈ ((t.resumeCommands c).drop 1).take 2, Gcode.hasPositiveFeed line) ↔ ∀ p ∈ t.pause,
      1 / 2 < value (c.xyJogSpeed * 60) ∧ 1 / 2 < value (c.zJogSpeed * 60)) ∧
    (∀ axis delta feed, Gcode.isJog axis (t.jogCommand axis delta feed) ↔
      (t.jogWord axis delta).isFinite ∧ feed.isFinite) ∧
    (c.Modest → (∀ op ∈ ops, op.Modest) → ops.length < 2 ^ 23 →
      (∀ p ∈ t.pause, p.Finite) ∧
        ∀ axis delta, Double.Within 1 delta → (t.jogWord axis delta).isFinite) := by
  refine ⟨?_, ?_, fun axis delta feed => ?_, fun hc hops hlength => ?_⟩
  · rw [resumeCommands, List.forall_mem_map, resumeLines]
    cases t.pause with
    | none => simp
    | some p => simpa using Pause.forall_wellFormed_lines
  · rw [resumeCommands, ← List.map_drop, ← List.map_take, List.forall_mem_map, resumeLines]
    cases t.pause with
    | none => simp
    | some p => simpa using Pause.forall_positive_feeds
  · rw [isJog_jogCommand, Bool.and_eq_true]
  · have hwithin : t.Within ops.length := by
      have hrun := (within_start (k := 0) c minimum).run hc (by omega) hops
      rwa [ht, Nat.zero_add] at hrun
    exact ⟨hwithin.pause, fun axis delta => hwithin.jogWord hlength axis⟩

/-- A print with a shifted origin that is paused far from where its moves led. -/
def pausedPrint : List Operation :=
  [.send { g := some 92, words := { xyz := ⟨some 1e300, none, some (-0.125)⟩, e := some 3.5 } },
    .send { g := some 1, words := { xyz := ⟨none, some 12.5, none⟩, feed := some 1500 } },
    .receive "ok X:-1e300 Z:0.2 E:1", .send { g := some 91 }, .storePause]

theorem lines_written_pausedPrint :
    (∀ line ∈ (run {} pausedPrint (start {} 0)).resumeCommands {}, Gcode.isWellFormed line) ∧
      (∀ line ∈ (((run {} pausedPrint (start {} 0)).resumeCommands {}).drop 1).take 2,
        Gcode.hasPositiveFeed line) ∧
      ∀ axis, Gcode.isJog axis ((run {} pausedPrint (start {} 0)).jogCommand axis 0.25 600) := by
  have hrun : run {} pausedPrint (start {} 0) = run {} pausedPrint (start {} 0) := rfl
  obtain ⟨hlines, hfeeds, hjog, hfinite⟩ := lines_written 0 hrun
  obtain ⟨hpause, hword⟩ := hfinite (by decide +kernel) (by decide +kernel) (by decide)
  have hspeeds : 1 / 2 < value (({} : Config).xyJogSpeed * 60) ∧
      1 / 2 < value (({} : Config).zJogSpeed * 60) := by decide +kernel
  refine ⟨hlines.mpr fun p hp => ⟨hpause p hp, by decide +kernel, by decide +kernel⟩,
    hfeeds.mpr fun p _ => hspeeds, fun axis => ?_⟩
  exact (hjog axis 0.25 600).mpr ⟨hword axis 0.25 (by decide +kernel), by decide +kernel⟩

/-- A configuration that is accepted though its jog speed is no number. -/
theorem resumeCommands_of_nanSpeed :
    Config.ofToml "xy_jog_speed = nan" = .ok { xyJogSpeed := .nan } ∧
      ∃ line ∈ (run { xyJogSpeed := .nan } [.storePause]
          (start { xyJogSpeed := .nan } 0)).resumeCommands { xyJogSpeed := .nan },
        Gcode.isWellFormed line = false := by
  decide +kernel

end Tracker

end PrinterShadow
