import Mathlib.Data.List.Basic
import PrinterShadow.Proofs.Tracker.Slots

/-!
A tracker that looks its slots up with a check, and gives up where it looks beyond them. One with
its active extruder among the slots, and a slot for every extruder of the configuration, never gives
up: it does what the tracker without checks does (`perform?_eq_some`).
-/

namespace PrinterShadow

namespace Tracker

/-! ## Looking up with a check -/

/-- Changes the record in a slot, if there is such a slot. -/
def update? (slot : Nat) (f : Extruder → Extruder) (t : Tracker) : Option Tracker :=
  t.slots[slot]?.map fun ex => { t with slots := t.slots.set slot (f ex) }

def updateFilament? (f : Filament → Filament) (t : Tracker) : Option Tracker :=
  t.update? t.active fun ex => { ex with filament := f ex.filament }

def updateHeater? (slot : Nat) (f : Heater → Heater) (t : Tracker) : Option Tracker :=
  t.update? slot fun ex => { ex with heater := f ex.heater }

def linearMove? (c : Config) (w : Words) (t : Tracker) : Option (Tracker × Move) := do
  let before := (← t.slots[t.active]?).filament
  let relative := t.motion.movesFilamentRelatively
  let motion := t.motion.move c w
  let filament := before.advance relative w.e
  let progress := t.progress.countLayer motion.position.z filament
  let effect : Move := ⟨t.motion.position, before.position, before.extrudes relative w.e⟩
  let t ← t.updateFilament? fun _ => filament.settle
  some
    ({ t with
        motion := { motion with charged := motion.position }
        progress := progress.charge (motion.length filament) motion.feedRate
        lastMove := some effect },
      effect)

/-- An instruction that concerns no extruder looks no slot up. -/
def obey? (c : Config) (t : Tracker) : Instruction → Option (Tracker × Option Move)
  | .linearMove w => (t.linearMove? c w).map fun (t, effect) => (t, some effect)
  | .home w toUpper =>
    let t := { t with motion := t.motion.home c w toUpper }
    (if !toUpper && w.e.isSome then t.updateFilament? Filament.home else some t).map (·, none)
  | .setPosition w =>
    ({ t with motion := t.motion.setPosition w }.updateFilament? (Filament.setPosition w.e)).map
      (·, none)
  | .heat tool target =>
    (t.updateHeater? (t.resolve ((tool.map Int32.toInt).getD (-1))) fun h =>
      { h with target := target.getD h.target }).map (·, none)
  | i => some (t.obey c i)

def send? (c : Config) (cmd : Command) (t : Tracker) : Option (Tracker × Option Move) :=
  let t := t.noteLine cmd
  match response t.uploading cmd with
  | .confirmHome => some (t.confirmHome c, none)
  | .ignore _ => some (t, none)
  | .gate => some (t, none)
  | .obey instruction => t.obey? c instruction

def applyFilament? (r : Status.Report) (t : Tracker) : Option Tracker :=
  match r.filament with
  | none => some t
  | some e => t.updateFilament? fun f => { f with position := e }

def applyExtruders? (r : Status.Report) (t : Tracker) : Option Tracker :=
  r.extruders.zipIdx.foldlM (fun t (reading, n) =>
    t.updateHeater? (t.resolve n) (Heater.update t.firmware.family reading)) t

def applyCurrent? (r : Status.Report) (t : Tracker) : Option Tracker :=
  if r.current.temperature.isSome then
    (t.updateHeater? t.active (Heater.update t.firmware.family r.current)).map fun t =>
      { t with temperatureSeen := true }
  else some t

def applyTargets? (r : Status.Report) (t : Tracker) : Option Tracker :=
  r.extruderTargets.foldlM (fun t target =>
    t.updateHeater? 0 fun h => { h with target := target.getD h.target }) t

def receive? (line : String) (t : Tracker) : Option (Tracker × LineClass) := do
  let r := Status.Report.ofTokens (Status.tokens line)
  let t ← ((t.applyIntroduction r).applyPosition r).applyFilament? r
  let t ← t.applyExtruders? r
  let t ← t.applyCurrent? r
  let t ← t.applyTargets? r
  some (t.applyDevice r, if r.isTelemetry then .telemetry else .unclassified)

/-- A snapshot that lists the heater of every extruder of the configuration. -/
def snapshot? (c : Config) (t : Tracker) : Option Snapshot := do
  let extruders ← (List.range c.extruderCount).mapM fun slot => t.slots[slot]?.map Extruder.heater
  some { t.snapshot c with extruders }

def capture? (t : Tracker) : Option Pause := do
  let filament := (← t.slots[t.active]?).filament
  some
    { position := .ofFn t.motion.coordinate
      filament := filament.position - filament.offset
      feedRate := t.motion.feedRate
      relative := t.motion.relative }

def jogWord? (axis : Axis) (delta : Float) (t : Tracker) : Option Float :=
  match axis with
  | .extruder =>
    if t.motion.movesFilamentRelatively then some delta
    else t.slots[t.active]?.map fun ex => ex.filament.counter + delta
  | .cartesian a => some (if t.motion.relative then delta else t.motion.coordinate a + delta)

/-- Performs an operation; none where it looks a slot up that is not there. -/
def perform? (c : Config) (op : Operation) (t : Tracker) : Option (Tracker × Answer) :=
  match op with
  | .send cmd => (t.send? c cmd).map fun (t, effect) => (t, .moved effect)
  | .receive line => (t.receive? line).map fun (t, lineClass) => (t, .classified lineClass)
  | .snapshot => (t.snapshot? c).map fun s => (t, .snapshot s)
  | .extruder selector => t.slots[t.resolve selector]?.map fun ex => (t, .extruder ex)
  | .storePause => t.capture?.map fun p => ({ t with pause := some p }, .paused p)
  | .jog axis delta feedRate =>
    (t.jogWord? axis delta).map fun word =>
      (t, .jog (Gcode.Line.render ⟨1, [.ofFloat axis.letter 2 word, .ofFloat 'F' 0 feedRate]⟩))
  | op => some (t.perform c op)

/-! ## What is looked up is there -/

variable {c : Config} {t : Tracker}

theorem update?_eq_some {slot : Nat} (h : slot < t.slots.length) (f : Extruder → Extruder) :
    t.update? slot f = some { t with slots := t.slots.modify slot f } := by
  rw [update?, List.getElem?_eq_getElem h, Option.map_some, List.modify_eq_set_get f h,
    List.get_eq_getElem]

theorem updateFilament?_eq_some (h : t.ActiveValid) (f : Filament → Filament) :
    t.updateFilament? f = some (t.updateFilament f) :=
  update?_eq_some h _

theorem updateHeater?_eq_some {slot : Nat} (h : slot < t.slots.length) (f : Heater → Heater) :
    t.updateHeater? slot f = some (t.updateHeater slot f) :=
  update?_eq_some h _

theorem resolve_lt (h : t.ActiveValid) (selector : Int) : t.resolve selector < t.slots.length :=
  resolveSlot_lt h

theorem getElem?_eq_extruderAt {slot : Nat} (h : slot < t.slots.length) :
    t.slots[slot]? = some (t.extruderAt slot) := by
  rw [extruderAt, List.getD_eq_getElem?_getD, List.getElem?_eq_getElem h, Option.getD_some]

theorem getElem?_active (h : t.ActiveValid) : t.slots[t.active]? = some t.activeExtruder :=
  getElem?_eq_extruderAt h

theorem linearMove?_eq_some (h : t.ActiveValid) (w : Words) :
    t.linearMove? c w = some (t.linearMove c w) := by
  simp only [linearMove?, getElem?_active h, updateFilament?_eq_some h, Option.bind_eq_bind,
    Option.bind_some]
  rfl

theorem obey?_eq_some (h : t.ActiveValid) (i : Instruction) : t.obey? c i = some (t.obey c i) := by
  cases i with
  | linearMove w => rw [obey?, linearMove?_eq_some h]; rfl
  | home w toUpper =>
    have hhomed : { t with motion := t.motion.home c w toUpper }.ActiveValid := h
    simp only [obey?, obey, home, updateFilament?_eq_some hhomed]
    split <;> rfl
  | setPosition w =>
    have hplaced : { t with motion := t.motion.setPosition w }.ActiveValid := h
    rw [obey?, updateFilament?_eq_some hplaced]
    rfl
  | heat tool target => rw [obey?, updateHeater?_eq_some (resolve_lt h _)]; rfl
  | _ => rfl

theorem send?_eq_some (h : t.ActiveValid) (cmd : Command) :
    t.send? c cmd = some (t.send c cmd) := by
  have hnoted : (t.noteLine cmd).ActiveValid := by
    rwa [ActiveValid, active_noteLine, slots_noteLine]
  simp only [send?, send]
  cases response (t.noteLine cmd).uploading cmd with
  | obey i => exact obey?_eq_some hnoted i
  | _ => rfl

theorem ActiveValid.updateHeater (h : t.ActiveValid) (slot : Nat) (f : Heater → Heater) :
    (t.updateHeater slot f).ActiveValid := by
  rw [ActiveValid, length_slots_updateHeater]
  exact h

/-- Updates of heaters that find their slots one after the other. -/
theorem foldlM_updateHeater? {α : Type} (h : t.ActiveValid) {slot : Tracker → α → Nat}
    (hslot : ∀ t x, t.ActiveValid → slot t x < t.slots.length) (f : Tracker → α → Heater → Heater)
    (xs : List α) :
    xs.foldlM (fun t x => t.updateHeater? (slot t x) (f t x)) t =
        some (xs.foldl (fun t x => t.updateHeater (slot t x) (f t x)) t) ∧
      (xs.foldl (fun t x => t.updateHeater (slot t x) (f t x)) t).ActiveValid := by
  induction xs generalizing t with
  | nil => exact ⟨rfl, h⟩
  | cons x xs ih =>
    rw [List.foldlM_cons, updateHeater?_eq_some (hslot t x h)]
    exact ih (h.updateHeater _ _)

theorem applyFilament?_eq_some (h : t.ActiveValid) (r : Status.Report) :
    t.applyFilament? r = some (t.applyFilament r) ∧ (t.applyFilament r).ActiveValid := by
  unfold applyFilament? applyFilament
  cases r.filament with
  | none => exact ⟨rfl, h⟩
  | some e =>
    refine ⟨updateFilament?_eq_some h _, ?_⟩
    rw [ActiveValid, length_slots_updateFilament]
    exact h

theorem applyExtruders?_eq_some (h : t.ActiveValid) (r : Status.Report) :
    t.applyExtruders? r = some (t.applyExtruders r) ∧ (t.applyExtruders r).ActiveValid :=
  foldlM_updateHeater? h (fun _ (x : Status.Reading × Nat) ht => resolve_lt ht x.2)
    (fun t x => Heater.update t.firmware.family x.1) r.extruders.zipIdx

theorem applyCurrent?_eq_some (h : t.ActiveValid) (r : Status.Report) :
    t.applyCurrent? r = some (t.applyCurrent r) ∧ (t.applyCurrent r).ActiveValid := by
  unfold applyCurrent? applyCurrent
  split
  · exact ⟨by rw [updateHeater?_eq_some h]; rfl, h.updateHeater _ _⟩
  · exact ⟨rfl, h⟩

theorem applyTargets?_eq_some (h : t.ActiveValid) (r : Status.Report) :
    t.applyTargets? r = some (t.applyTargets r) :=
  (foldlM_updateHeater? h (fun _ (_ : Option Float) ht => Nat.zero_lt_of_lt ht)
    (fun _ target h => { h with target := target.getD h.target }) r.extruderTargets).1

theorem receive?_eq_some (h : t.ActiveValid) (line : String) :
    t.receive? line = some (t.receive line) := by
  let r := Status.Report.ofTokens (Status.tokens line)
  have hplaced : ((t.applyIntroduction r).applyPosition r).ActiveValid := h
  obtain ⟨hfilament, hvalid⟩ := applyFilament?_eq_some hplaced r
  obtain ⟨hextruders, hvalid⟩ := applyExtruders?_eq_some hvalid r
  obtain ⟨hcurrent, hvalid⟩ := applyCurrent?_eq_some hvalid r
  have htargets := applyTargets?_eq_some hvalid r
  simp only [receive?, hfilament, hextruders, hcurrent, htargets, Option.bind_eq_bind,
    Option.bind_some, r]
  rfl

theorem mapM_range {α β : Type} (f : α → β) {xs : List α} {n : Nat} (h : n ≤ xs.length) :
    (List.range n).mapM (fun i => xs[i]?.map f) = some ((xs.take n).map f) := by
  induction n with
  | zero => rfl
  | succ n ih =>
    have hn : n < xs.length := h
    rw [List.range_succ, List.mapM_append, ih (Nat.le_of_lt hn), List.mapM_cons,
      List.getElem?_eq_getElem hn, List.take_succ_eq_append_getElem hn, List.map_append]
    rfl

theorem snapshot?_eq_some (h : c.extruderCount ≤ t.slots.length) :
    t.snapshot? c = some (t.snapshot c) := by
  rw [snapshot?, mapM_range _ h]
  rfl

/-- Whatever is asked of a tracker, every slot that it looks up is there. -/
theorem perform?_eq_some (h : t.ActiveValid) (hcount : c.extruderCount ≤ t.slots.length)
    (op : Operation) : t.perform? c op = some (t.perform c op) := by
  cases op with
  | send cmd => rw [perform?, send?_eq_some h]; rfl
  | receive line => rw [perform?, receive?_eq_some h]; rfl
  | snapshot => rw [perform?, snapshot?_eq_some hcount]; rfl
  | extruder selector => rw [perform?, getElem?_eq_extruderAt (resolve_lt h selector)]; rfl
  | storePause => rw [perform?, capture?, getElem?_active h]; rfl
  | jog axis delta feedRate =>
    have hword : t.jogWord? axis delta = some (t.jogWord axis delta) := by
      cases axis with
      | extruder =>
        rw [jogWord?, jogWord, getElem?_active h]
        split <;> rfl
      | cartesian a => rfl
    rw [perform?, hword]
    rfl
  | _ => rfl

end Tracker

end PrinterShadow
