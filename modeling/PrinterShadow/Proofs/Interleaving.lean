import PrinterShadow.Proofs.Tracker.Views

/-!
The sender and the reader do not disturb each other. What is sent shapes the session, and the lines
of the firmware shape what is reported; however the two are interleaved, each comes out as if it had
been followed alone.
-/

namespace PrinterShadow

/-- The list goes through the first list of operations and the lines of the second, each in its own
order. -/
inductive Interleaving : List Operation → List String → List Operation → Prop where
  | nil : Interleaving [] [] []
  | host {op : Operation} {host : List Operation} {lines : List String} {ops : List Operation} :
      Interleaving host lines ops → Interleaving (op :: host) lines (op :: ops)
  | line {line : String} {host : List Operation} {lines : List String} {ops : List Operation} :
      Interleaving host lines ops → Interleaving host (line :: lines) (.receive line :: ops)

def Operation.selectsTool (uploading : Bool) : Operation → Bool
  | .send cmd =>
    match Tracker.response uploading cmd with
    | .obey (.selectTool _) => true
    | _ => false
  | _ => false

/-- Whether a line reports no number for an axis or the extruder. -/
def Status.Quiet (line : String) : Prop :=
  (∀ a, number? (axisKey a) (tokens line) = none) ∧ number? "E" (tokens line) = none

instance (line : String) : Decidable (Status.Quiet line) := inferInstanceAs (Decidable (_ ∧ _))

/-- What the host's commands shape. -/
structure Session where
  motion : Motion
  progress : Progress
  active : Nat
  uploading : Bool
  lastLine : UInt32
  powerOn : Bool
  fanOn : Bool
  debugLevel : Int32
  temperatureMonitor : Int32
  pause : Option Pause
  lastMove : Option Move
  /-- The filament record of every slot. -/
  filaments : List Filament
  deriving DecidableEq, Repr

/-- What the lines of the firmware shape. -/
structure Reported where
  /-- The reading and the output of the heater of every slot. -/
  heaters : List (Float × Int32)
  bedReading : Float
  speed : Int32
  flow : Int32
  firmware : Firmware.Identity
  binaryVersion : Int32
  temperatureSeen : Bool
  deriving DecidableEq, Repr

def Heater.readings (h : Heater) : Float × Int32 := (h.reading, h.output)

def Status.Reading.replace (family : Firmware.Family) (r : Reading) (old : Float × Int32) :
    Float × Int32 :=
  (r.temperature.getD old.1, (r.output.map family.normalizeOutput).getD old.2)

theorem Heater.readings_update (family : Firmware.Family) (r : Status.Reading) (h : Heater) :
    (h.update family r).readings = r.replace family h.readings := rfl

namespace Tracker

def session (t : Tracker) : Session where
  motion := t.motion
  progress := t.progress
  active := t.active
  uploading := t.uploading
  lastLine := t.lastLine
  powerOn := t.powerOn
  fanOn := t.fan.on
  debugLevel := t.debugLevel
  temperatureMonitor := t.temperatureMonitor
  pause := t.pause
  lastMove := t.lastMove
  filaments := t.slots.map Extruder.filament

def reported (t : Tracker) : Reported where
  heaters := t.slots.map fun ex => ex.heater.readings
  bedReading := t.bed.reading
  speed := t.speed
  flow := t.flow
  firmware := t.firmware
  binaryVersion := t.binaryVersion
  temperatureSeen := t.temperatureSeen

/-- What the commands of a run are answered. -/
def effects (c : Config) : List Operation → Tracker → List (Option Move)
  | [], _ => []
  | op :: ops, t =>
    match (t.perform c op).2 with
    | .moved effect => effect :: effects c ops (t.perform c op).1
    | _ => effects c ops (t.perform c op).1

variable {c : Config} {s t : Tracker}

/-! ## The session -/

@[simp]
theorem session_updateHeater (slot : Nat) (f : Heater → Heater) :
    (t.updateHeater slot f).session = t.session :=
  congrArg (fun filaments => { t.session with filaments }) (map_filament_updateHeater slot f)

theorem session_updateFilament (f : Filament → Filament) :
    (t.updateFilament f).session =
      { t.session with filaments := t.session.filaments.modify t.session.active f } :=
  congrArg (fun filaments => { t.session with filaments }) (map_filament_updateFilament f)

theorem session_apply {r : Status.Report} (hposition : ∀ a, r.position.get a = none)
    (hfilament : r.filament = none) : (t.apply r).session = t.session := by
  obtain ⟨slots, seen, hfilaments, heq⟩ := apply_eq (t := t) r
  rw [applyFilament, hfilament] at hfilaments
  have hmotion : (t.applyPosition r).motion = t.motion := Motion.report_of_none hposition t.motion
  rw [heq, hmotion]
  exact congrArg (fun filaments => { t.session with filaments }) hfilaments

theorem session_receive {line : String} (h : Status.Quiet line) :
    (t.receive line).1.session = t.session :=
  session_apply (fun a => (Xyz.get_ofFn _ a).trans (h.1 a)) h.2

theorem session_standsAlone : StandsAlone session where
  course _ _ h :=
    congrArg (fun k : Session =>
      Course.mk k.motion k.progress k.lastMove k.active k.filaments) h
  heater slot f _ := session_updateHeater slot f
  filament f s t h := by
    dsimp only
    rw [session_updateFilament, session_updateFilament, h]
  moved motion progress lastMove _ _ h :=
    congrArg (fun k : Session => { k with motion, progress, lastMove }) h
  active active _ _ h := congrArg (fun k : Session => { k with active }) h
  uploading uploading _ _ h := congrArg (fun k : Session => { k with uploading }) h
  powerOn powerOn _ _ h := congrArg (fun k : Session => { k with powerOn }) h
  bed _ _ _ h := h
  fan on _ _ _ h := congrArg (fun k : Session => { k with fanOn := on }) h
  lastLine f _ _ h := congrArg (fun k : Session => { k with lastLine := f k.lastLine }) h
  debugLevel f _ _ h := congrArg (fun k : Session => { k with debugLevel := f k.debugLevel }) h
  temperatureMonitor temperatureMonitor _ _ h :=
    congrArg (fun k : Session => { k with temperatureMonitor }) h
  pause pause _ _ h := congrArg (fun k : Session => { k with pause }) h

/-- What a host operation does to the session, and what a command is answered, depends on the
session alone. -/
theorem perform_of_session (h : s.session = t.session) {op : Operation} (hop : op.IsHost) :
    (s.perform c op).1.session = (t.perform c op).1.session ∧
      effects c [op] s = effects c [op] t := by
  have hup : s.uploading = t.uploading := congrArg Session.uploading h
  refine ⟨session_standsAlone.perform h hup hop, ?_⟩
  cases op with
  | send cmd => exact congrArg (fun effect => [effect]) (session_standsAlone.send h hup cmd).2
  | receive line => exact absurd hop id
  | reset => exact absurd hop id
  | _ => rfl

/-! ## The reports -/

@[simp]
theorem reported_updateFilament (f : Filament → Filament) :
    (t.updateFilament f).reported = t.reported :=
  congrArg (fun heaters => { t.reported with heaters })
    (map_modify_of_eq (fun _ => by rfl) t.active t.slots)

/-- A change to a heater shows as the change to what is read of it. -/
theorem reported_updateHeater {f : Heater → Heater} {g : Float × Int32 → Float × Int32}
    (hf : ∀ h, (f h).readings = g h.readings) (slot : Nat) :
    (t.updateHeater slot f).reported =
      { t.reported with heaters := t.reported.heaters.modify slot g } :=
  congrArg (fun heaters => { t.reported with heaters })
    (map_modify (fun ex => hf ex.heater) slot t.slots)

theorem reported_updateTarget (slot : Nat) (target : Heater → Float) :
    (t.updateHeater slot fun h => { h with target := target h }).reported = t.reported := by
  have hid (h : Heater) : { h with target := target h }.readings = id h.readings := rfl
  rw [reported_updateHeater hid, List.modify_id]

theorem reported_obey (i : Instruction) : (t.obey c i).1.reported = t.reported := by
  cases i with
  | linearMove w =>
    exact reported_updateFilament fun _ =>
      (t.activeExtruder.filament.advance t.motion.movesFilamentRelatively w.e).settle
  | home w toUpper =>
    change (t.home c w toUpper).reported = _
    rw [home_eq]
    exact reported_updateFilament _
  | setPosition w => exact reported_updateFilament _
  | heat tool target => exact reported_updateTarget _ _
  | _ => rfl

theorem reported_perform {op : Operation} (hop : op.IsHost) :
    (t.perform c op).1.reported = t.reported := by
  cases op with
  | send cmd =>
    have hnote : (t.noteLine cmd).reported = t.reported := by
      unfold noteLine
      split <;> rfl
    change (t.send c cmd).1.reported = _
    rw [send_eq]
    cases response t.uploading cmd with
    | obey i => exact (reported_obey i).trans hnote
    | _ => exact hnote
  | receive line => exact absurd hop id
  | reset => exact absurd hop id
  | _ => rfl

/-- Two trackers agree on what is reported and on the active slot. -/
structure AgreeOnReports (s t : Tracker) : Prop where
  reported : s.reported = t.reported
  active : s.active = t.active

namespace AgreeOnReports

theorem length (h : s.AgreeOnReports t) : s.slots.length = t.slots.length := by
  have := congrArg (fun reported => reported.heaters.length) h.reported
  simpa [Tracker.reported] using this

theorem updateHeater (h : s.AgreeOnReports t) (slot : Nat) (r : Status.Reading) :
    (s.updateHeater slot (Heater.update s.firmware.family r)).AgreeOnReports
      (t.updateHeater slot (Heater.update t.firmware.family r)) := by
  have hfirmware : s.firmware = t.firmware := congrArg Reported.firmware h.reported
  have hupdate (u : Tracker) := reported_updateHeater (t := u)
    (Heater.readings_update t.firmware.family r) slot
  refine ⟨?_, h.active⟩
  rw [hfirmware, hupdate s, hupdate t, h.reported]

theorem updateTarget (h : s.AgreeOnReports t) (slot : Nat) (target : Heater → Float) :
    (s.updateHeater slot fun h => { h with target := target h }).AgreeOnReports
      (t.updateHeater slot fun h => { h with target := target h }) :=
  ⟨by rw [reported_updateTarget, reported_updateTarget, h.reported], h.active⟩

theorem applyExtruders (h : s.AgreeOnReports t) (r : Status.Report) :
    (s.applyExtruders r).AgreeOnReports (t.applyExtruders r) := by
  unfold Tracker.applyExtruders
  generalize r.extruders.zipIdx = readings
  induction readings generalizing s t with
  | nil => exact h
  | cons reading readings ih =>
    have hresolve : s.resolve reading.2 = t.resolve reading.2 := by
      rw [resolve, resolve, h.active, h.length]
    refine ih ?_
    dsimp only
    rw [hresolve]
    exact h.updateHeater _ _

theorem applyCurrent (h : s.AgreeOnReports t) (r : Status.Report) :
    (s.applyCurrent r).AgreeOnReports (t.applyCurrent r) := by
  have hupdate := h.updateHeater t.active r.current
  unfold Tracker.applyCurrent
  rw [h.active]
  split
  · exact ⟨congrArg (fun reported => { reported with temperatureSeen := true }) hupdate.reported,
      hupdate.active⟩
  · exact h

theorem applyTargets (h : s.AgreeOnReports t) (r : Status.Report) :
    (s.applyTargets r).AgreeOnReports (t.applyTargets r) := by
  unfold Tracker.applyTargets
  generalize r.extruderTargets = targets
  induction targets generalizing s t with
  | nil => exact h
  | cons target targets ih => exact ih (h.updateTarget 0 fun h => target.getD h.target)

theorem applyFilament (h : s.AgreeOnReports t) (r : Status.Report) :
    (s.applyFilament r).AgreeOnReports (t.applyFilament r) := by
  unfold Tracker.applyFilament
  split
  · exact h
  · exact ⟨by rw [reported_updateFilament, reported_updateFilament, h.reported], h.active⟩

/-- What a report does to what is reported depends on that and the active slot alone. -/
theorem apply (h : s.AgreeOnReports t) (r : Status.Report) :
    (s.apply r).AgreeOnReports (t.apply r) := by
  have hintroduction : (s.applyIntroduction r).AgreeOnReports (t.applyIntroduction r) :=
    ⟨congrArg (fun reported : Reported => { reported with
      firmware := (r.introduction.map reported.firmware.update).getD reported.firmware })
        h.reported, h.active⟩
  have hposition : ((s.applyIntroduction r).applyPosition r).AgreeOnReports
      ((t.applyIntroduction r).applyPosition r) :=
    ⟨hintroduction.reported, h.active⟩
  have hheaters := (((hposition.applyFilament r).applyExtruders r).applyCurrent r).applyTargets r
  exact ⟨congrArg (fun reported : Reported => { reported with
      bedReading := r.bedTemperature.getD reported.bedReading
      speed := r.speed.getD reported.speed
      flow := r.flow.getD reported.flow
      binaryVersion := r.binaryVersion.getD reported.binaryVersion }) hheaters.reported,
    hheaters.active⟩

end AgreeOnReports

/-! ## Interleavings -/

theorem effects_cons (op : Operation) (ops : List Operation) :
    effects c (op :: ops) t = effects c [op] t ++ effects c ops (t.perform c op).1 := by
  simp only [effects]
  split <;> rfl

/-- However quiet lines are interleaved with host operations, the session and what the commands are
answered are those of the host operations alone. -/
theorem session_of_interleaving {host : List Operation} {lines : List String}
    {ops : List Operation} (h : Interleaving host lines ops) (hhost : ∀ op ∈ host, op.IsHost)
    (hquiet : ∀ line ∈ lines, Status.Quiet line) (hst : s.session = t.session) :
    (s.run c ops).session = (t.run c host).session ∧ effects c ops s = effects c host t := by
  induction h generalizing s t with
  | nil => exact ⟨hst, rfl⟩
  | @host op host lines ops _ ih =>
    obtain ⟨hsession, heffects⟩ := perform_of_session (c := c) hst (hhost op List.mem_cons_self)
    obtain ⟨hrun, hrest⟩ :=
      ih (fun op' hop' => hhost op' (List.mem_cons_of_mem op hop')) hquiet hsession
    refine ⟨hrun, ?_⟩
    rw [effects_cons, effects_cons op host, heffects, hrest]
  | @line line host lines ops _ ih =>
    have hsession := session_receive (t := s) (hquiet line List.mem_cons_self)
    exact ih hhost (fun line' hline' => hquiet line' (List.mem_cons_of_mem line hline'))
      (hsession.trans hst)

theorem active_perform_of_not_selectsTool {op : Operation} (hop : op.IsHost)
    (htool : op.selectsTool t.uploading = false) : (t.perform c op).1.active = t.active := by
  cases op with
  | send cmd =>
    change (t.send c cmd).1.active = _
    rw [send_eq, active_respond]
    unfold Operation.selectsTool at htool
    split
    · rename_i heq
      simp [heq] at htool
    · exact active_noteLine cmd
  | receive line => exact absurd hop id
  | reset => exact absurd hop id
  | _ => rfl

/-- Where the host operations select no tool, what is reported is that of the lines alone, however
they are interleaved. -/
theorem reports_of_interleaving {host : List Operation} {lines : List String}
    {ops : List Operation} (h : Interleaving host lines ops) (hhost : ∀ op ∈ host, op.IsHost)
    (hquiet : ∀ line ∈ lines, Status.Quiet line) {u : Tracker} (hst : s.session = t.session)
    (htool : Along c (fun t op => op.selectsTool t.uploading = false) host t)
    (hsu : s.AgreeOnReports u) :
    (s.run c ops).AgreeOnReports (u.run c (lines.map .receive)) := by
  induction h generalizing s t u with
  | nil => exact hsu
  | @host op host lines ops _ ih =>
    have hop := hhost op List.mem_cons_self
    have hactive := active_perform_of_not_selectsTool (c := c) (t := s) hop (by
      rw [show s.uploading = t.uploading from congrArg Session.uploading hst]
      exact htool.1)
    exact ih (fun op' hop' => hhost op' (List.mem_cons_of_mem op hop')) hquiet
      (perform_of_session hst hop).1 htool.2
      ⟨(reported_perform hop).trans hsu.reported, hactive.trans hsu.active⟩
  | @line line host lines ops _ ih =>
    have hsession := session_receive (t := s) (hquiet line List.mem_cons_self)
    exact ih hhost (fun line' hline' => hquiet line' (List.mem_cons_of_mem line hline'))
      (hsession.trans hst) htool (hsu.apply _)

/-- The sender and the reader do not disturb each other. From any tracker, an interleaving of host
operations and quiet lines ends in the session of the operations alone and answers their commands
alike; where none of them selects a tool, it ends in the reports of the lines alone. -/
theorem interleaving_separates (c : Config) (t : Tracker) {host : List Operation}
    {lines : List String} {ops : List Operation} (h : Interleaving host lines ops)
    (hhost : ∀ op ∈ host, op.IsHost) (hquiet : ∀ line ∈ lines, Status.Quiet line) :
    (run c ops t).session = (run c host t).session ∧ effects c ops t = effects c host t ∧
      (Along c (fun t op => op.selectsTool t.uploading = false) host t →
        (run c ops t).reported = (run c (lines.map .receive) t).reported) := by
  obtain ⟨hsession, heffects⟩ := session_of_interleaving (c := c) h hhost hquiet (t := t) rfl
  exact ⟨hsession, heffects, fun htool =>
    (reports_of_interleaving h hhost hquiet rfl htool ⟨rfl, rfl⟩).reported⟩

theorem reported_between_move_and_pause :
    (run {} [.send { g := some 1, words.xyz := ⟨some 3, none, none⟩ }, .receive "ok T:21 @:4",
      .storePause] (start {} 0)).reported =
      (run {} [.receive "ok T:21 @:4"] (start {} 0)).reported := by
  have hinterleaving : Interleaving
      [.send { g := some 1, words.xyz := ⟨some 3, none, none⟩ }, .storePause] ["ok T:21 @:4"] _ :=
    .host (.line (.host .nil))
  have hseparate := interleaving_separates {} (start {} 0) hinterleaving
    (by simp [Operation.IsHost]) (by decide +kernel)
  exact hseparate.2.2 (by decide +kernel)

end Tracker

end PrinterShadow
