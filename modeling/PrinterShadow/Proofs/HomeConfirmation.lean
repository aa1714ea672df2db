import PrinterShadow.Proofs.Homing

/-!
The ways to learn that every axis is at home: the word of the host, a directive of which the first
word confirms it, and a command to home that names nothing. All of them leave every axis homed, at
its home position and without an offset, and all else as it was. A directive that begins with
another word changes nothing, whatever other words come with it.
-/

namespace PrinterShadow

namespace Motion

variable {c : Config} {m : Motion} {w : Words}

/-- The motion with every axis homed, at its home position and without an offset. -/
def atHome (c : Config) (m : Motion) : Motion :=
  { m with
    position := .ofFn fun a => (c.limits.get a).home
    offset := .replicate 0
    homed := .replicate true }

theorem home_eq_atHome (h : ∀ a, w.covers a) : m.home c w false = m.atHome c := by
  simp only [home, h, Bool.true_or, if_true]
  rfl

end Motion

/-- Whether a command homes all axes, by naming none, and the extruder not. It has no line number. -/
structure Command.HomesAll (cmd : Command) : Prop where
  directive : cmd.directive = none
  lineNumber : cmd.lineNumber = none
  g : cmd.g = some 28 ∨ cmd.g = some 161
  namesNone : ∀ a, ¬ cmd.words.names a
  e : cmd.words.e = none

namespace Tracker

variable {c : Config} {t : Tracker} {cmd : Command}

def atHome (c : Config) (t : Tracker) : Tracker := { t with motion := t.motion.atHome c }

theorem confirmHome_eq_atHome : t.confirmHome c = t.atHome c := by
  rw [confirmHome, Motion.home_eq_atHome Words.covers_empty]
  rfl

theorem send_of_directive {text : String} (h : cmd.directive = some text) :
    t.send c cmd =
      if (Command.directiveWords text).head? = some ['@', 'i', 's', 'a', 't', 'h', 'o', 'm', 'e']
      then (t.atHome c, none) else (t, none) := by
  have hnoted : t.noteLine cmd = t := by simp only [noteLine, h]
  have hresponse : response t.uploading cmd =
      if Command.confirmsHome text then .confirmHome else .ignore text := by
    simp only [response, h]
  simp only [send_eq, hnoted, hresponse, Command.confirmsHome_iff]
  split
  · exact congrArg (·, none) confirmHome_eq_atHome
  · rfl

theorem send_of_homesAll (hup : t.uploading = false) (h : cmd.HomesAll) :
    t.send c cmd = (t.atHome c, none) := by
  have hinstruction : cmd.instruction = .home cmd.words false :=
    Command.instruction_eq_home_iff.mpr ⟨h.g, rfl⟩
  have hcovers (a : Cartesian) : cmd.words.covers a := Words.covers_iff.mpr (.inr h.namesNone)
  rw [send_of_not_uploading hup h.directive h.lineNumber, hinstruction]
  change (t.home c cmd.words false, none) = _
  rw [home, Motion.home_eq_atHome hcovers, h.e]
  rfl

/-- The word of the host, a directive of which the first word confirms it and, while no file is being
uploaded, a command to home that names nothing leave the tracker the same, with every axis at home.
Any other directive changes nothing. -/
theorem home_confirmations_agree (c : Config) (t : Tracker) :
    t.confirmHome c = t.atHome c ∧
      (∀ cmd text, cmd.directive = some text → t.send c cmd =
        if (Command.directiveWords text).head? = some ['@', 'i', 's', 'a', 't', 'h', 'o', 'm', 'e']
        then (t.atHome c, none) else (t, none)) ∧
      (t.uploading = false → ∀ cmd, cmd.HomesAll → t.send c cmd = (t.atHome c, none)) :=
  ⟨confirmHome_eq_atHome, fun _ _ => send_of_directive, fun hup _ => send_of_homesAll hup⟩

/-- An axis that is not homed has an offset, and positioning is relative. -/
def relabelled : Tracker :=
  run {} [.send { g := some 1, words.xyz := ⟨some 50, none, none⟩ },
    .send { g := some 92, words.xyz := ⟨some 10, none, none⟩ }, .send { g := some 91 }] (start {} 0)

/-- A directive with blanks before its first word and text after it, beside the words of a move. -/
def spokenHome : Command :=
  { directive := some "\u2003 @isathome\tnow", lineNumber := some 9, g := some 1
    words.xyz := ⟨some 3, none, none⟩ }

theorem home_confirmations_relabelled :
    relabelled.send {} spokenHome = (relabelled.confirmHome {}, none) ∧
      relabelled.send {} { g := some 161, m := some 104, words.feed := some 300 } =
        (relabelled.confirmHome {}, none) ∧
      relabelled.send {} { directive := some "@isathome2", lineNumber := some 9, m := some 28 } =
        (relabelled, none) := by
  obtain ⟨hconfirm, hdirective, hhome⟩ := home_confirmations_agree {} relabelled
  rw [hconfirm]
  refine ⟨?_, ?_, ?_⟩
  · exact (hdirective spokenHome _ rfl).trans (if_pos (by decide +kernel))
  · exact hhome (by decide +kernel) _ ⟨rfl, rfl, .inr rfl, by decide, rfl⟩
  · exact (hdirective _ _ rfl).trans (if_neg (by decide +kernel))

end Tracker

end PrinterShadow
