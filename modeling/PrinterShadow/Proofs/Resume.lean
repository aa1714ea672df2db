import PrinterShadow.Proofs.Config.Limits
import PrinterShadow.Proofs.Gcode.Reading
import PrinterShadow.Proofs.Tracker.Slots

/-!
Pausing and resuming. The text that resumes a print, read as commands and followed, brings the
position, the mode, the feed rate and the filament's coordinate back to what they were at the pause,
whatever happened in between. The text of a jog is read and followed in the same way.
-/

namespace PrinterShadow

open Double

namespace Gcode.Line

def instruction (line : Line) : Instruction :=
  .ofG line.command.words line.g.toNat

/-- A G line is no upload and selects no tool. -/
theorem instruction_cases (line : Line) :
    (∀ before, (Tracker.Response.obey line.instruction).uploading before = before) ∧
      ∀ tool, line.instruction ≠ .selectTool tool := by
  unfold instruction Instruction.ofG
  split <;> exact ⟨fun _ => rfl, nofun⟩

end Gcode.Line

def headAfter (c : Config) (head : Motion × Filament) (i : Instruction) : Motion × Filament :=
  (head.1.obey c i, head.2.obey head.1 i)

namespace Tracker

variable {c : Config} {t : Tracker}

def head (t : Tracker) : Motion × Filament :=
  (t.motion, t.activeExtruder.filament)

theorem perform_line (hup : t.uploading = false) (line : Gcode.Line) :
    (t.perform c (.send line.command)).1 = (t.obey c line.instruction).1 := by
  change (t.send c line.command).1 = _
  rw [send_eq, hup]
  rfl

/-- What lines do outside an upload is what their instructions do to the head. -/
theorem run_lines (lines : List Gcode.Line) (hup : t.uploading = false) (hactive : t.ActiveValid) :
    (run c (lines.map fun line => .send line.command) t).head =
        (lines.map Gcode.Line.instruction).foldl (headAfter c) t.head ∧
      (run c (lines.map fun line => .send line.command) t).active = t.active := by
  induction lines generalizing t with
  | nil => exact ⟨rfl, rfl⟩
  | cons line lines ih =>
    obtain ⟨hupload, htool⟩ := line.instruction_cases
    have hvalid := hactive.perform (c := c) (.send line.command)
    rw [perform_line hup] at hvalid
    rw [List.map_cons, run_cons, perform_line hup, List.map_cons, List.foldl_cons]
    have hup' : (t.obey c line.instruction).1.uploading = false := by
      rw [← hup, ← hupload t.uploading]
      exact uploading_respond (.obey line.instruction)
    have hhead : (t.obey c line.instruction).1.head = headAfter c t.head line.instruction :=
      Prod.ext (motion_respond (.obey line.instruction)) (filament_obey hactive htool)
    have hsame : (t.obey c line.instruction).1.active = t.active := by
      refine (active_respond (.obey line.instruction)).trans ?_
      split
      · injection ‹Response.obey _ = _› with heq
        exact absurd heq (htool _)
      · rfl
    rw [← hhead, ← hsame]
    exact ih hup' hvalid

end Tracker

namespace Motion

variable {c : Config} {m : Motion} {w : Words} {a : Cartesian}

theorem get_position_obey_named {v : Float} (hw : w.xyz.get a = some v) (hrel : m.relative = false)
    (hin : ¬ (c.limits.get a).Excludes (m.offset.get a + v)) :
    (m.obey c (.linearMove w)).position.get a = m.offset.get a + v := by
  have htarget : m.target w a = m.offset.get a + v := by simp [target, hw, hrel]
  rw [obey, get_position_move, htarget, Limits.clamp_of_not_excludes hin]

theorem get_position_obey_unnamed (hw : w.xyz.get a = none)
    (hin : ¬ (c.limits.get a).Excludes (m.position.get a)) :
    (m.obey c (.linearMove w)).position.get a = m.position.get a := by
  have htarget : m.target w a = m.position.get a := by simp [target, hw]
  rw [obey, get_position_move, htarget, Limits.clamp_of_not_excludes hin]

end Motion

namespace Pause

variable {c : Config} {p : Pause}

/-- What the lines of a pause ask for. The feed rates of the first two moves do not last. -/
theorem map_instruction_lines (c : Config) (p : Pause) :
    ∃ f₁ f₂ : Option Float, (p.lines c).map Gcode.Line.instruction =
      [Instruction.positioning false,
        .linearMove
          { xyz := ⟨(Fixed.ofFloat 2 p.position.x).toFloat?,
              (Fixed.ofFloat 2 p.position.y).toFloat?, none⟩
            feed := f₁ },
        .linearMove { xyz := ⟨none, none, (Fixed.ofFloat 2 p.position.z).toFloat?⟩, feed := f₂ },
        .setPosition { e := (Fixed.ofFloat 4 p.filament).toFloat? }] ++
      (if p.relative then [Instruction.positioning true] else []) ++
      [Instruction.linearMove { feed := (Fixed.ofFloat 0 p.feedRate).toFloat? }] := by
  refine ⟨(Fixed.ofFloat 0 (c.xyJogSpeed * 60)).toFloat?,
    (Fixed.ofFloat 0 (c.zJogSpeed * 60)).toFloat?, ?_⟩
  simp only [lines, List.map_append]
  cases p.relative <;>
    simp [Gcode.Line.instruction, Gcode.Line.command, Gcode.Line.number?, Gcode.Word.ofFloat,
      Xyz.ofFn, Cartesian.letter, Instruction.ofG]

/-- Moving X and Y, then Z, then no axis, leads every axis to its word. -/
theorem position_moves {m : Motion} (hrel : m.relative = false) {v : Xyz Float}
    (hin : ∀ a, ¬ (c.limits.get a).Excludes (m.offset.get a + v.get a))
    {q r s : Words} (hq : q.xyz = ⟨some v.x, some v.y, none⟩)
    (hr : r.xyz = ⟨none, none, some v.z⟩) (hs : s.xyz = ⟨none, none, none⟩) {n : Motion}
    (hn : n.position = ((m.obey c (.linearMove q)).obey c (.linearMove r)).position)
    (a : Cartesian) :
    (n.obey c (.linearMove s)).position.get a = m.offset.get a + v.get a := by
  have hxy (a : Cartesian) (ha : q.xyz.get a = some (v.get a)) :
      (m.obey c (.linearMove q)).position.get a = m.offset.get a + v.get a :=
    Motion.get_position_obey_named ha hrel (hin a)
  have hgoal : n.position.get a = m.offset.get a + v.get a := by
    rw [hn]
    cases a with
    | z => exact Motion.get_position_obey_named (by rw [hr]; rfl) hrel (hin .z)
    | x | y =>
      rw [← hxy _ (by rw [hq]; rfl)]
      refine Motion.get_position_obey_unnamed (by rw [hr]; rfl) ?_
      rw [hxy _ (by rw [hq]; rfl)]
      exact hin _
  rw [← hgoal]
  refine Motion.get_position_obey_unnamed (by rw [hs]; cases a <;> rfl) ?_
  rw [hgoal]
  exact hin a

/-- The lines of a pause bring the head to where the words that are read lead, in the mode and with
the feed rate of the pause, and give the filament its coordinate where it is. -/
theorem head_lines {v : Xyz Float} {e f : Float}
    (hv : ∀ a, (Fixed.ofFloat 2 (p.position.get a)).toFloat? = some (v.get a))
    (he : (Fixed.ofFloat 4 p.filament).toFloat? = some e)
    (hf : (Fixed.ofFloat 0 p.feedRate).toFloat? = some f) (m : Motion) (fil : Filament)
    (hin : ∀ a, ¬ (c.limits.get a).Excludes (m.offset.get a + v.get a)) :
    let head := ((p.lines c).map Gcode.Line.instruction).foldl (headAfter c) (m, fil)
    (∀ a, head.1.position.get a = m.offset.get a + v.get a) ∧ head.1.offset = m.offset ∧
      head.1.relative = p.relative ∧ head.1.feedRate = f ∧
      head.2.position = fil.position ∧ head.2.offset = fil.position - e ∧
      head.2.counter = e := by
  have hx := hv .x
  have hy := hv .y
  have hz := hv .z
  simp only [Xyz.get] at hx hy hz
  obtain ⟨f₁, f₂, hlines⟩ := map_instruction_lines c p
  rw [hlines, hx, hy, hz, he, hf]
  have hmoves (n : Motion) := position_moves (c := c) (m := { m with relative := false }) rfl hin
    (q := { xyz := ⟨some v.x, some v.y, none⟩, feed := f₁ })
    (r := { xyz := ⟨none, none, some v.z⟩, feed := f₂ }) (s := { feed := some f }) rfl rfl rfl
    (n := n)
  have hname (m₄ : Motion) : m₄.setPosition { e := some e } = m₄ :=
    Motion.setPosition_of_none (fun a => by cases a <;> rfl) m₄
  cases p.relative with
  | false =>
    refine ⟨hmoves (Motion.setPosition { e := some e } _) rfl, ?_⟩
    simp [headAfter, Motion.obey, Motion.move, hname, Motion.feedAfter, Filament.obey,
      Filament.advance, Filament.settle, Filament.setPosition]
  | true =>
    refine ⟨hmoves { Motion.setPosition { e := some e } _ with relative := true } rfl, ?_⟩
    simp [headAfter, Motion.obey, Motion.move, hname, Motion.feedAfter, Filament.obey,
      Filament.advance, Filament.settle, Filament.setPosition]

theorem plain_of_mem_lines {line : Gcode.Line} (h : line ∈ p.lines c) : line.Plain := by
  unfold lines at h
  revert line
  cases p.relative <;> simp [Gcode.Line.Plain, Gcode.Word.ofFloat]

end Pause

namespace Tracker

variable {c : Config} {s t u : Tracker}

def Reachable (c : Config) (t : Tracker) : Prop :=
  ∃ minimum ops, run c ops (start c minimum) = t

theorem Reachable.activeValid (h : t.Reachable c) : t.ActiveValid := by
  obtain ⟨minimum, ops, rfl⟩ := h
  exact (activeValid_start c minimum).run ops

theorem Reachable.run (h : t.Reachable c) (ops : List Operation) : (t.run c ops).Reachable c := by
  obtain ⟨minimum, before, rfl⟩ := h
  exact ⟨minimum, before ++ ops, run_append before ops⟩

theorem pause_respond (r : Response) : (t.respond c r).1.pause = t.pause := by
  cases r with
  | obey i =>
    cases i with
    | home w toUpper =>
      change (t.home c w toUpper).pause = _
      rw [home_eq]
      rfl
    | _ => rfl
  | _ => rfl

theorem pause_perform {op : Operation} (hreset : op ≠ .reset) (hstore : op ≠ .storePause) :
    (t.perform c op).1.pause = t.pause := by
  cases op with
  | send cmd =>
    obtain ⟨lastLine, heq⟩ := noteLine_eq (t := t) cmd
    change (t.send c cmd).1.pause = _
    rw [send_eq, pause_respond, heq]
  | receive line =>
    obtain ⟨slots, seen, -, heq⟩ := apply_eq (t := t) (.ofTokens (Status.tokens line))
    change (t.apply _).pause = _
    rw [heq]
    rfl
  | reset => exact absurd rfl hreset
  | storePause => exact absurd rfl hstore
  | _ => rfl

theorem pause_run {ops : List Operation} (h : ∀ op ∈ ops, op ≠ .reset ∧ op ≠ .storePause) :
    (t.run c ops).pause = t.pause :=
  run_invariant (I := fun u => u.pause = t.pause)
    (fun op hop _ hu => (pause_perform (h op hop).1 (h op hop).2).trans hu) rfl

/-- What is read of the lines that resume a print are the commands that the lines stand for. -/
theorem map_read_resumeCommands {p : Pause} (h : t.pause = some p) :
    (t.resumeCommands c).map (fun text => Operation.send (Gcode.read text)) =
      (p.lines c).map fun line => .send line.command := by
  rw [resumeCommands, resumeLines, h, List.map_map]
  refine List.map_congr_left fun line hline => ?_
  exact congrArg Operation.send (Gcode.Line.read_render (Pause.plain_of_mem_lines hline))

theorem plain_jogLine (axis : Axis) (delta feed : Float) : (t.jogLine axis delta feed).Plain := by
  cases axis with
  | extruder => simp [Gcode.Line.Plain, jogLine, Gcode.Word.ofFloat, Axis.letter]
  | cartesian a =>
    cases a <;>
      simp [Gcode.Line.Plain, jogLine, Gcode.Word.ofFloat, Axis.letter, Cartesian.letter]

/-- The text of a jog, followed outside an upload, does what its line stands for. -/
theorem run_jogCommand_eq (hup : t.uploading = false) (axis : Axis) (delta feed : Float) :
    run c [.send (Gcode.read (t.jogCommand axis delta feed))] t =
      (t.obey c (t.jogLine axis delta feed).instruction).1 := by
  rw [jogCommand, Gcode.Line.read_render (plain_jogLine axis delta feed), run_cons, run_nil,
    perform_line hup]

/-- Whether the numbers that a pause is taken from are whole and below `2 ^ 40`. -/
structure WholeHead (t : Tracker) : Prop where
  position : ∀ a, WholeBelow (2 ^ 40) (t.motion.position.get a)
  offset : ∀ a, WholeBelow (2 ^ 40) (t.motion.offset.get a)
  feedRate : WholeBelow (2 ^ 40) t.motion.feedRate
  filament : WholeBelow (2 ^ 40) t.activeExtruder.filament.position
  filamentOffset : WholeBelow (2 ^ 40) t.activeExtruder.filament.offset

theorem WholeHead.exists_read (h : s.WholeHead) :
    ∃ (v : Xyz Float) (e f : Float),
      (∀ a, (Fixed.ofFloat 2 (s.capture.position.get a)).toFloat? = some (v.get a) ∧
        Whole (v.get a) (wholeOf (s.motion.position.get a) - wholeOf (s.motion.offset.get a))) ∧
      ((Fixed.ofFloat 4 s.capture.filament).toFloat? = some e ∧
        Whole e (wholeOf s.activeExtruder.filament.position -
          wholeOf s.activeExtruder.filament.offset) ∧ e == s.capture.filament) ∧
      (Fixed.ofFloat 0 s.capture.feedRate).toFloat? = some f ∧ f == s.motion.feedRate := by
  have hdiff {x y : Float} (hx : WholeBelow (2 ^ 40) x) (hy : WholeBelow (2 ^ 40) y) :
      Whole (x - y) (wholeOf x - wholeOf y) := by
    have hlt := hx.2
    have hlt' := hy.2
    exact hx.1.sub hy.1 (by omega)
  have hcoord (a : Cartesian) : ∃ y,
      (Fixed.ofFloat 2 (s.capture.position.get a)).toFloat? = some y ∧
        Whole y (wholeOf (s.motion.position.get a) - wholeOf (s.motion.offset.get a)) := by
    rw [capture, Xyz.get_ofFn]
    exact Fixed.toFloat?_ofFloat (hdiff (h.position a) (h.offset a)) 2
  choose v hv using hcoord
  have hwhole := hdiff h.filament h.filamentOffset
  obtain ⟨e, he, hwholee⟩ := Fixed.toFloat?_ofFloat hwhole 4
  obtain ⟨f, hf, hwholef⟩ := Fixed.toFloat?_ofFloat h.feedRate.1 0
  refine ⟨.ofFn v, e, f, fun a => ?_, ⟨he, hwholee, hwholee.beq hwhole⟩, hf,
    hwholef.beq h.feedRate.1⟩
  rw [Xyz.get_ofFn]
  exact hv a

/-- A pause is resumed where it was taken. Whatever followed the pause, if no file is being
uploaded, the extruder is the same and so are the offsets, then the text that resumes the print
brings back the position, the mode and the feed rate, and the coordinate of the filament, which
stays where it is. -/
theorem resume_restores {between : List Operation} (hs : s.Reachable c)
    (hin : ∀ a, (c.limits.get a).Contains (s.motion.position.get a)) (hwhole : s.WholeHead)
    (hbetween : ∀ op ∈ between, op ≠ .reset ∧ op ≠ .storePause)
    (ht : run c between s.storePause = t) (hup : t.uploading = false)
    (hactive : t.active = s.active)
    (hoffset : ∀ a, t.motion.offset.get a == s.motion.offset.get a)
    (hfilament : WholeBelow (2 ^ 40) t.activeExtruder.filament.position)
    (hu : run c ((t.resumeCommands c).map fun text => .send (Gcode.read text)) t = u) :
    (∀ a, u.motion.position.get a == s.motion.position.get a) ∧
      u.motion.relative = s.motion.relative ∧ u.motion.feedRate == s.motion.feedRate ∧
      u.motion.offset = t.motion.offset ∧ u.active = s.active ∧
      u.activeExtruder.filament.position = t.activeExtruder.filament.position ∧
      u.activeExtruder.filament.position - u.activeExtruder.filament.offset ==
        s.capture.filament ∧
      u.activeExtruder.filament.counter == s.capture.filament := by
  have hvalid : t.ActiveValid := by
    rw [← ht]
    exact ((hs.run [.storePause]).run between).activeValid
  have hpause : t.pause = some s.capture := by
    rw [← ht]
    exact pause_run hbetween
  obtain ⟨v, e, f, hv, ⟨he, hwholee, hbeqe⟩, hf, hbeqf⟩ := hwhole.exists_read
  have hgoal (a : Cartesian) :
      t.motion.offset.get a + v.get a == s.motion.position.get a := by
    refine (Whole.of_beq (hoffset a) (hwhole.offset a).1).add_beq (hv a).2 ?_
    rw [add_sub_cancel]
    exact (hwhole.position a).1
  obtain ⟨hhead, hsame⟩ := run_lines (c := c) (s.capture.lines c) hup hvalid
  rw [← map_read_resumeCommands hpause, hu] at hhead hsame
  obtain ⟨hpos, hoff, hrel, hfeed, hfpos, hfoff, hfcount⟩ :=
    Pause.head_lines (c := c) (fun a => (hv a).1) he hf t.motion t.activeExtruder.filament
      fun a hout => Limits.not_excludes_of_contains (hin a)
        ((Limits.excludes_congr (hgoal a)).mp hout)
  change u.head = List.foldl (headAfter c) (t.motion, t.activeExtruder.filament) _ at hhead
  rw [← hhead] at hpos hoff hrel hfeed hfpos hfoff hfcount
  simp only [head] at hpos hoff hrel hfeed hfpos hfoff hfcount
  have hfil : u.activeExtruder.filament.position - u.activeExtruder.filament.offset ==
      s.capture.filament := by
    have hlt := hfilament.2
    have hlte := hwhole.filament.2
    have hlto := hwhole.filamentOffset.2
    rw [hfpos, hfoff]
    exact BEq.trans (hfilament.1.sub_sub_self hwholee (by omega)) hbeqe
  refine ⟨fun a => ?_, hrel, ?_, hoff, hsame.trans hactive, hfpos, hfil, ?_⟩
  · rw [hpos a]
    exact hgoal a
  · rw [hfeed]
    exact hbeqf
  · rw [hfcount]
    exact hbeqe

/-- A print that is paused in relative positioning, with all coordinates shifted. -/
def shiftedPrint : List Operation :=
  [.send { g := some 92, words := { xyz := ⟨some 10, none, some (-5)⟩, e := some 7 } },
    .send { g := some 91 },
    .send
      { g := some 1
        words := { xyz := ⟨some 30, some 40, some 2⟩, e := some 2, feed := some 900 } }]

def pauseTime : List Operation :=
  [.receive "ok X:20 Y:7 E:3", .send { g := some 90 },
    .send { g := some 1, words := { xyz := ⟨some 100, none, some 1⟩, e := some 9 } }, .increaseLine]

theorem position_of_shiftedPrint :
    ((run {} (((run {} pauseTime (run {} shiftedPrint (start {} 0)).storePause).resumeCommands
        {}).map fun text => .send (Gcode.read text))
      (run {} pauseTime (run {} shiftedPrint (start {} 0)).storePause)).motion.position.get .x ==
        (run {} shiftedPrint (start {} 0)).motion.position.get .x) = true := by
  have hwhole : (run {} shiftedPrint (start {} 0)).WholeHead :=
    ⟨by decide +kernel, by decide +kernel, by decide +kernel, by decide +kernel, by decide +kernel⟩
  have hpauseTime : ∀ op ∈ pauseTime, op ≠ .reset ∧ op ≠ .storePause := by simp [pauseTime]
  have hresume := resume_restores (c := {}) (s := run {} shiftedPrint (start {} 0))
    ⟨0, shiftedPrint, rfl⟩ (by decide +kernel) hwhole hpauseTime
    rfl (by decide +kernel) (by decide +kernel) (by decide +kernel) (by decide +kernel) rfl
  exact hresume.1 .x

end Tracker

end PrinterShadow
