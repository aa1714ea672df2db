import PrinterShadow.Proofs.ToolSelection
import PrinterShadow.Proofs.Tracker.Views

/-!
Starting over. What a reset keeps of a tracker are readings of heaters and what the firmware said
of itself, and none of these ever comes to bear on anything else. With them forgotten, a tracker
that has started over is a new one, whatever it went through before.
-/

namespace PrinterShadow

def Extruder.forget (ex : Extruder) : Extruder := { ex with heater := {} }

/-- An answer without what a reset keeps, which only copies of the tracker and of an extruder
show. -/
def Answer.forget : Answer → Answer
  | .snapshot s =>
    .snapshot { s with
      firmwareName := ""
      firmwareUrl := ""
      extruders := s.extruders.map fun _ => {} }
  | .extruder ex => .extruder ex.forget
  | answer => answer

namespace Tracker

/-- The tracker without what a reset keeps: the heaters of the extruders, the identity of the
firmware but for its family, and whether a temperature was seen. -/
def forget (t : Tracker) : Tracker :=
  { t with
    slots := t.slots.map Extruder.forget
    firmware := { family := t.firmware.family }
    temperatureSeen := false }

/-- What the operations of a run are answered. -/
def answers (c : Config) : List Operation → Tracker → List Answer
  | [], _ => []
  | op :: ops, t => (t.perform c op).2 :: answers c ops (t.perform c op).1

variable {c : Config} {s t : Tracker}

/-! ## What forgetting commutes with -/

@[simp]
theorem forget_updateHeater (slot : Nat) (f : Heater → Heater) :
    (t.updateHeater slot f).forget = t.forget :=
  congrArg (fun slots => { t.forget with slots }) (map_modify_of_eq (fun _ => by rfl) slot t.slots)

theorem forget_updateFilament (f : Filament → Filament) :
    (t.updateFilament f).forget = t.forget.updateFilament f :=
  congrArg (fun slots => { t.forget with slots }) (map_modify (fun _ => by rfl) t.active t.slots)

theorem course_forget (t : Tracker) : t.forget.course = t.course :=
  congrArg (fun filaments => { t.course with filaments }) List.map_map

theorem extruderAt_forget (slot : Nat) : t.forget.extruderAt slot = (t.extruderAt slot).forget := by
  rw [extruderAt, extruderAt, List.getD_eq_getElem?_getD, List.getD_eq_getElem?_getD]
  change ((t.slots.map Extruder.forget)[slot]?).getD _ = _
  rw [List.getElem?_map]
  cases t.slots[slot]? <;> rfl

theorem snapshot_forget :
    Answer.snapshot (t.forget.snapshot c) = (Answer.snapshot (t.snapshot c)).forget := by
  have hextruders : ((t.slots.map Extruder.forget).take c.extruderCount).map Extruder.heater =
      ((t.slots.take c.extruderCount).map Extruder.heater).map fun _ => {} := by
    rw [← List.map_take, List.map_map, List.map_map]
    rfl
  exact congrArg (fun extruders => Answer.snapshot { t.snapshot c with
    firmwareName := "", firmwareUrl := "", extruders }) hextruders

/-- The family that a firmware belongs to which introduces itself. -/
def applyFamily (r : Status.Report) (t : Tracker) : Tracker :=
  { t with
    firmware.family := (r.introduction.map fun (i : Status.Introduction) =>
      .classify i.name).getD t.firmware.family }

/-- Readings of heaters and most of an introduction leave no trace. -/
theorem forget_apply (r : Status.Report) :
    (t.apply r).forget =
      (((t.forget.applyFamily r).applyPosition r).applyFilament r).applyDevice r := by
  have hfilament (t : Tracker) : (t.applyFilament r).forget = t.forget.applyFilament r := by
    unfold applyFilament
    cases r.filament with
    | none => rfl
    | some e => exact forget_updateFilament _
  have hheaters := applyHeaters_of_invariant (g := forget) (fun _ => forget_updateHeater)
    (fun _ => rfl) r
  have hintroduction : (t.applyIntroduction r).forget = t.forget.applyFamily r := by
    unfold applyIntroduction applyFamily
    cases r.introduction <;> rfl
  change (((((t.applyIntroduction r).applyPosition r).applyFilament r).applyExtruders r
    |>.applyCurrent r).applyTargets r).forget.applyDevice r = _
  rw [hheaters, hfilament, ← hintroduction]
  rfl

theorem forget_reset :
    t.reset.forget = { slots := (t.slots.map Extruder.id).map fun id => { id } } := by
  simp [reset, forget, Extruder.forget, Function.comp_def]

/-! ## What is forgotten does not come to bear -/

theorem course_of_forget (h : s.forget = t.forget) : s.course = t.course := by
  rw [← course_forget, h, course_forget]

theorem forget_standsAlone : StandsAlone forget where
  course _ _ h := course_of_forget h
  heater slot f _ := forget_updateHeater slot f
  filament f s t h := by
    dsimp only
    rw [forget_updateFilament, forget_updateFilament, h]
  moved motion progress lastMove _ _ h :=
    congrArg (fun u : Tracker => { u with motion, progress, lastMove }) h
  active active _ _ h := congrArg (fun u : Tracker => { u with active }) h
  uploading uploading _ _ h := congrArg (fun u : Tracker => { u with uploading }) h
  powerOn powerOn _ _ h := congrArg (fun u : Tracker => { u with powerOn }) h
  bed f _ _ h := congrArg (fun u : Tracker => { u with bed := f u.bed }) h
  fan on voltage _ _ h :=
    congrArg (fun u : Tracker => { u with fan := ⟨on, voltage.getD u.fan.voltage⟩ }) h
  lastLine f _ _ h := congrArg (fun u : Tracker => { u with lastLine := f u.lastLine }) h
  debugLevel f _ _ h := congrArg (fun u : Tracker => { u with debugLevel := f u.debugLevel }) h
  temperatureMonitor temperatureMonitor _ _ h :=
    congrArg (fun u : Tracker => { u with temperatureMonitor }) h
  pause pause _ _ h := congrArg (fun u : Tracker => { u with pause }) h

theorem reset_of_forget (h : s.forget = t.forget) : s.reset.forget = t.reset.forget := by
  have hid (u : Tracker) : u.forget.slots.map Extruder.id = u.slots.map Extruder.id := by
    simp [forget, Extruder.forget, Function.comp_def]
  rw [forget_reset, forget_reset, ← hid, h, hid]

/-- Trackers that are the same but for what is forgotten stay so, and answer alike. -/
theorem perform_of_forget (h : s.forget = t.forget) (op : Operation) :
    (s.perform c op).1.forget = (t.perform c op).1.forget ∧
      (s.perform c op).2.forget = (t.perform c op).2.forget := by
  have hcourse := course_of_forget h
  have hmotion : s.motion = t.motion := congrArg Course.motion hcourse
  have huploading : s.uploading = t.uploading := (congrArg Tracker.uploading h :)
  have hlastLine : s.lastLine = t.lastLine := (congrArg Tracker.lastLine h :)
  have hpause : s.pause = t.pause := (congrArg Tracker.pause h :)
  have hresume : s.resumeCommands c = t.resumeCommands c := by
    rw [resumeCommands, resumeCommands, resumeLines, resumeLines, hpause]
  have hhost : op.IsHost → (s.perform c op).1.forget = (t.perform c op).1.forget :=
    forget_standsAlone.perform h huploading
  cases op with
  | send cmd =>
    have heffect := (forget_standsAlone.send (c := c) h huploading cmd).2
    exact ⟨hhost trivial, congrArg Answer.moved heffect⟩
  | receive line =>
    refine ⟨?_, rfl⟩
    change (s.apply _).forget = (t.apply _).forget
    rw [forget_apply, forget_apply, h]
  | reset => exact ⟨reset_of_forget h, rfl⟩
  | confirmHome => exact ⟨hhost trivial, rfl⟩
  | increaseLine =>
    refine ⟨hhost trivial, congrArg Answer.lineNumber ?_⟩
    rw [increaseLine, increaseLine, hlastLine]
  | decreaseLine =>
    refine ⟨hhost trivial, congrArg Answer.lineNumber ?_⟩
    rw [decreaseLine, decreaseLine, hlastLine]
  | snapshot =>
    refine ⟨h, ?_⟩
    change (Answer.snapshot (s.snapshot c)).forget = (Answer.snapshot (t.snapshot c)).forget
    rw [← snapshot_forget, h, snapshot_forget]
  | extruder selector =>
    refine ⟨h, congrArg Answer.extruder ?_⟩
    rw [extruder, extruder, ← extruderAt_forget, ← extruderAt_forget, h, resolve_of_course hcourse]
  | storePause => exact ⟨hhost trivial, congrArg Answer.paused (capture_of_course hcourse)⟩
  | resumeCommands => exact ⟨h, congrArg Answer.commands hresume⟩
  | resume sink =>
    exact ⟨h, congrArg
      (fun lines => Answer.delivered (sink.deliver lines).1 (sink.deliver lines).2) hresume⟩
  | jog axis delta feedRate =>
    refine ⟨h, congrArg Answer.jog ?_⟩
    have hword : s.jogWord axis delta = t.jogWord axis delta := by
      unfold jogWord
      rw [hmotion, filament_of_course hcourse]
    rw [jogCommand, jogCommand, jogLine, jogLine, hword]

theorem run_of_forget (h : s.forget = t.forget) (ops : List Operation) :
    (run c ops s).forget = (run c ops t).forget ∧
      (answers c ops s).map Answer.forget = (answers c ops t).map Answer.forget := by
  induction ops generalizing s t with
  | nil => exact ⟨h, rfl⟩
  | cons op ops ih =>
    obtain ⟨hforget, hanswer⟩ := perform_of_forget (c := c) h op
    obtain ⟨hrun, hanswers⟩ := ih hforget
    refine ⟨hrun, ?_⟩
    rw [answers, answers, List.map_cons, List.map_cons, hanswer, hanswers]

/-! ## Starting over -/

theorem map_id_run (ops : List Operation) :
    (run c ops t).slots.map Extruder.id = t.slots.map Extruder.id :=
  run_invariant (I := fun u => u.slots.map Extruder.id = t.slots.map Extruder.id)
    (fun op _ _ hids => (map_id_perform op).trans hids) rfl

/-- A tracker that has started over is a new one, but for what is forgotten. -/
theorem forget_run_reset (minimum : Nat) (ops : List Operation) :
    (run c (ops ++ [.reset]) (start c minimum)).forget = start c minimum := by
  rw [run_append]
  change (run c ops (start c minimum)).reset.forget = _
  rw [forget_reset, map_id_run]
  simp [start, fresh, Function.comp_def]

/-- Starting over erases what was before. Whatever two trackers went through until they started
over, they then give the same answers to the same operations and end in the same state, but for the
heaters of the extruders, the identity of the firmware beyond its family, and whether a temperature
was seen. -/
theorem reset_erases (c : Config) (minimum : Nat) (before before' ops : List Operation) :
    let s := run c (before ++ [.reset]) (start c minimum)
    let t := run c (before' ++ [.reset]) (start c minimum)
    (answers c ops s).map Answer.forget = (answers c ops t).map Answer.forget ∧
      (run c ops s).forget = (run c ops t).forget := by
  intro s t
  have hforget : s.forget = t.forget :=
    (forget_run_reset minimum before).trans (forget_run_reset minimum before').symm
  exact (run_of_forget hforget ops).symm

end Tracker

end PrinterShadow
