import PrinterShadow.Proofs.Tracker.Steps

/-!
Uploading a file. What is sent between the start of an upload and its end goes into the file: an
upload leaves the tracker as it was before, but for the last line number among its commands.
-/

namespace PrinterShadow

namespace Command

/-- The words of a directive, which blanks keep apart. -/
def directiveWords (text : String) : List (List Char) :=
  (text.toList.splitOnP isDirectiveBlank).filter (· ≠ [])

theorem head?_splitOnP {α : Type} (p : α → Bool) (l : List α) :
    (l.splitOnP p).head? = some (l.takeWhile (!p ·)) := by
  induction l with
  | nil => rfl
  | cons a l ih =>
    rw [List.splitOnP_cons_eq_if_modifyHead]
    by_cases ha : p a
    · simp [ha]
    · simp [ha, ih]

theorem directiveWord_eq (text : String) :
    directiveWord text = (directiveWords text).head?.getD [] := by
  unfold directiveWord directiveWords
  generalize text.toList = l
  induction l with
  | nil => rfl
  | cons a l ih =>
    by_cases ha : isDirectiveBlank a
    · simpa [List.splitOnP_cons_eq_if_modifyHead, ha] using ih
    · have hhead := head?_splitOnP isDirectiveBlank (a :: l)
      obtain ⟨word, words, hsplit⟩ :=
        List.exists_cons_of_ne_nil (List.splitOnP_ne_nil isDirectiveBlank (a :: l))
      rw [hsplit, List.head?_cons, Option.some_inj] at hhead
      rw [hsplit, hhead, List.dropWhile_cons_of_neg ha]
      simp [ha]

/-- The first word is what confirms that the printer is at home. -/
theorem confirmsHome_iff {text : String} : confirmsHome text ↔
    (directiveWords text).head? = some ['@', 'i', 's', 'a', 't', 'h', 'o', 'm', 'e'] := by
  rw [confirmsHome, decide_eq_true_eq, directiveWord_eq]
  cases (directiveWords text).head? <;> simp

/-- The line number that is noted of a command. A directive's is not. -/
def notedNumber? (cmd : Command) : Option UInt32 :=
  match cmd.directive with
  | some _ => none
  | none => cmd.lineNumber

/-- Whether a command leaves an upload as it is: it does not carry M29, or it is a directive of
which the first word does not confirm that the printer is at home. -/
def LeavesUpload (cmd : Command) : Prop :=
  match cmd.directive with
  | some text =>
    (directiveWords text).head? ≠ some ['@', 'i', 's', 'a', 't', 'h', 'o', 'm', 'e']
  | none => cmd.m ≠ some 29

instance : DecidablePred LeavesUpload
  | ⟨some _, _, _, _, _, _⟩ => inferInstanceAs (Decidable (_ ≠ _))
  | ⟨none, _, _, _, _, _⟩ => inferInstanceAs (Decidable (_ ≠ _))

/-- Whether a command with an M word is understood by it: there is no directive and no G word. -/
def IsM (cmd : Command) (number : UInt16) : Prop :=
  cmd.directive = none ∧ cmd.g = none ∧ cmd.m = some number

instance (cmd : Command) (number : UInt16) : Decidable (cmd.IsM number) :=
  inferInstanceAs (Decidable (_ ∧ _ ∧ _))

/-- The last number that is noted of some commands, or the number before them. -/
def lastNumber (cmds : List Command) (before : UInt32) : UInt32 :=
  (cmds.filterMap notedNumber?).getLast?.getD before

theorem lastNumber_cons (cmd : Command) (cmds : List Command) (before : UInt32) :
    lastNumber (cmd :: cmds) before = lastNumber cmds (cmd.notedNumber?.getD before) := by
  rw [lastNumber, lastNumber, List.filterMap_cons]
  cases cmd.notedNumber? with
  | none => rfl
  | some number => simp [List.getLast?_cons]

end Command

namespace Tracker

open Command (lastNumber lastNumber_cons)

variable {c : Config} {t : Tracker} {cmd : Command}

theorem noteLine_eq_notedNumber? (cmd : Command) :
    t.noteLine cmd = { t with lastLine := cmd.notedNumber?.getD t.lastLine } := by
  unfold noteLine Command.notedNumber?
  cases cmd.directive <;> rfl

theorem send_of_leavesUpload (hup : t.uploading = true) (h : cmd.LeavesUpload) :
    t.send c cmd = (t.noteLine cmd, none) := by
  have hresponse : response t.uploading cmd = .gate ∨
      ∃ text, response t.uploading cmd = .ignore text := by
    unfold Command.LeavesUpload at h
    unfold response
    rw [hup]
    cases hdirective : cmd.directive with
    | some text =>
      rw [hdirective] at h
      exact .inr ⟨text, if_neg (mt Command.confirmsHome_iff.mp h)⟩
    | none =>
      rw [hdirective] at h
      exact .inl (if_pos (by simpa [Command.isGated] using h))
  rw [send_eq]
  rcases hresponse with hr | ⟨text, hr⟩ <;> rw [hr] <;> rfl

/-- What leaves an upload as it is changes nothing but the line number. -/
theorem run_of_leavesUpload {cmds : List Command} (hup : t.uploading = true)
    (h : ∀ cmd ∈ cmds, cmd.LeavesUpload) :
    run c (cmds.map .send) t = { t with lastLine := lastNumber cmds t.lastLine } := by
  induction cmds generalizing t with
  | nil => rfl
  | cons cmd cmds ih =>
    have hstep : (t.perform c (.send cmd)).1 = t.noteLine cmd :=
      congrArg Prod.fst (send_of_leavesUpload hup (h cmd List.mem_cons_self))
    have hrest := ih (t := t.noteLine cmd) (by rw [noteLine_eq_notedNumber?]; exact hup)
      fun cmd' hcmd' => h cmd' (List.mem_cons_of_mem cmd hcmd')
    rw [List.map_cons, run_cons, hstep, hrest, noteLine_eq_notedNumber?, lastNumber_cons]

/-- An upload starts where none goes on, and ends anywhere. -/
theorem perform_upload (start : Bool) (hopen : start = true → t.uploading = false)
    (h : cmd.IsM (if start then 28 else 29)) :
    (t.perform c (.send cmd)).1 =
      { t with uploading := start, lastLine := cmd.notedNumber?.getD t.lastLine } := by
  obtain ⟨hdirective, hg, hm⟩ := h
  have hinstruction : cmd.instruction = .upload start := by
    cases start <;> simp [Command.instruction, hg, hm, Instruction.ofM]
  have hgate : (t.uploading && cmd.isGated) = false := by
    cases start with
    | true => rw [hopen rfl, Bool.false_and]
    | false => simp [Command.isGated, hm]
  have hresponse : response t.uploading cmd = .obey (.upload start) := by
    simp [response, hdirective, hgate, hinstruction]
  change (t.send c cmd).1 = _
  rw [send_eq, hresponse, noteLine_eq_notedNumber?]
  rfl

/-- An upload is airtight. Of its commands nothing remains but the last line number, none of those
between its start and its end is answered with a move, and none of them ends it. -/
theorem run_upload (c : Config) (hup : t.uploading = false) {first last : Command}
    {cmds : List Command} (hfirst : first.IsM 28) (hcmds : ∀ cmd ∈ cmds, cmd.LeavesUpload)
    (hlast : last.IsM 29) :
    run c ((first :: cmds ++ [last]).map .send) t =
        { t with lastLine := lastNumber (first :: cmds ++ [last]) t.lastLine } ∧
      ∀ before cmd after, cmds = before ++ cmd :: after →
        ((run c ((first :: before).map .send) t).send c cmd).2 = none ∧
          ((run c ((first :: before).map .send) t).send c cmd).1.uploading = true := by
  have hstart := perform_upload (c := c) true (fun _ => hup) hfirst
  constructor
  · rw [List.cons_append, List.map_cons, run_cons, hstart, List.map_append, run_append,
      run_of_leavesUpload rfl hcmds, List.map_singleton, run_cons, run_nil,
      perform_upload false nofun hlast, lastNumber_cons, lastNumber, lastNumber,
      List.filterMap_append, List.getLast?_append]
    cases hnumber : last.notedNumber? <;> simp [hnumber, hup]
  · rintro before cmd after rfl
    have hbefore : ∀ cmd' ∈ before, cmd'.LeavesUpload := fun cmd' hcmd' =>
      hcmds cmd' (List.mem_append_left _ hcmd')
    have hcmd : cmd.LeavesUpload := hcmds cmd (by simp)
    -- what came before it left the upload going on, and so does the command
    rw [List.map_cons, run_cons, hstart, run_of_leavesUpload rfl hbefore,
      send_of_leavesUpload rfl hcmd, noteLine_eq_notedNumber?]
    exact ⟨rfl, rfl⟩

/-- A file with a second start, a line number set within it, and a directive that has a number. -/
def uploadedFile : List Command :=
  [{ g := some 1, lineNumber := some 6, words.xyz := ⟨some 50, none, none⟩ }, { m := some 28 },
    { directive := some "say @isathome", lineNumber := some 99 },
    { m := some 110, lineNumber := some 7, tool := some 1 }, { m := some 110 }]

theorem run_uploadedFile :
    run {} (List.map Operation.send
        ({ m := some 28, lineNumber := some 5 } :: uploadedFile ++ [{ m := some 29 }]))
      (start {} 0) = { start {} 0 with lastLine := 7 } := by
  have hfirst : Command.IsM { m := some 28, lineNumber := some 5 } 28 := by decide
  have hcmds : ∀ cmd ∈ uploadedFile, cmd.LeavesUpload := by decide +kernel
  have hlast : Command.IsM { m := some 29 } 29 := by decide
  exact (run_upload {} (t := start {} 0) rfl hfirst hcmds hlast).1

end Tracker

end PrinterShadow
