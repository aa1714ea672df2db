import PrinterShadow.Proofs.Tracker.History

/-!
Extruders are isolated from each other. What is addressed to the active extruder changes neither the
record of another one nor how anything else is addressed, so with all of it deleted that is
addressed to others a run leaves the record of an extruder the same.
-/

namespace PrinterShadow

def Operation.isReceive : Operation → Bool
  | .receive _ => true
  | _ => false

/-- Whether an instruction is addressed to the extruder that is active. -/
def Instruction.AddressesTool (i : Instruction) : Prop :=
  (∃ w, i = .linearMove w) ∨ (∃ w toUpper, i = .home w toUpper) ∨ ∃ w, i = .setPosition w

namespace Step

variable {s : Step}

/-- Whether a step is addressed to the extruder that is active: it receives a line, or obeys a
command that moves, homes or gives new coordinates. -/
def AddressesTool (s : Step) : Prop :=
  s.op.isReceive ∨
    ∃ cmd ∈ s.obeyed?, cmd.g ∈ [some 0, some 1, some 28, some 161, some 162, some 92]

instance (s : Step) : Decidable s.AddressesTool :=
  have : Decidable (∃ cmd ∈ s.obeyed?,
      cmd.g ∈ [some 0, some 1, some 28, some 161, some 162, some 92]) :=
    inferInstanceAs (Decidable (∃ _ ∈ _, _))
  inferInstanceAs (Decidable (_ ∨ _))

theorem addressesTool_iff : s.AddressesTool ↔
    (∃ line, s.op = .receive line) ∨
      ∃ cmd i, s.op = .send cmd ∧ Tracker.response s.before.uploading cmd = .obey i ∧
        i.AddressesTool := by
  refine or_congr ?_ (exists_obeyed_iff fun cmd => ?_)
  · cases s.op <;> simp [Operation.isReceive]
  · simp only [Instruction.AddressesTool, Command.instruction_eq_linearMove_iff,
      Command.exists_instruction_eq_home_iff, Command.instruction_eq_setPosition_iff]
    simp [or_assoc]

end Step

/-- What decides to which extruder an operation is addressed, and how its words are taken. -/
structure Addressing where
  slots : Nat
  active : Nat := 0
  uploading : Bool := false
  relative : Bool := false
  extruderRelative : Bool := false

namespace Addressing

def obey (a : Addressing) : Instruction → Addressing
  | .positioning relative => { a with relative }
  | .extrusion relative => { a with extruderRelative := relative }
  | .upload start => { a with uploading := start }
  | .selectTool tool => { a with active := resolveSlot tool.toInt a.active a.slots }
  | _ => a

def respond (a : Addressing) : Tracker.Response → Addressing
  | .obey i => a.obey i
  | _ => a

def perform (op : Operation) (a : Addressing) : Addressing :=
  match op with
  | .send cmd => a.respond (Tracker.response a.uploading cmd)
  | .reset => { slots := a.slots }
  | _ => a

theorem obey_of_addressesTool {i : Instruction} (h : i.AddressesTool) (a : Addressing) :
    a.obey i = a := by
  rcases h with ⟨w, rfl⟩ | ⟨w, toUpper, rfl⟩ | ⟨w, rfl⟩ <;> rfl

end Addressing

namespace Filament

variable {m m' : Motion}

theorem perform_of_movesFilamentRelatively
    (h : m.movesFilamentRelatively = m'.movesFilamentRelatively) (uploading : Bool)
    (op : Operation) (f : Filament) : f.perform m uploading op = f.perform m' uploading op := by
  cases op with
  | send cmd =>
    simp only [perform, respond]
    split
    · rename_i i _
      cases i with
      | linearMove w => simp only [obey, h]
      | _ => rfl
    · rfl
  | _ => rfl

end Filament

namespace Tracker

variable {c : Config} {s t : Tracker} {k : Nat} {op : Operation}

def addressing (t : Tracker) : Addressing where
  slots := t.slots.length
  active := t.active
  uploading := t.uploading
  relative := t.motion.relative
  extruderRelative := t.motion.extruderRelative

/-- The operations of a run but for the ones that are addressed to another extruder than `k`. -/
def restrict (c : Config) (k : Nat) : List Operation → Tracker → List Operation
  | [], _ => []
  | op :: ops, t =>
    if t.active ≠ k ∧ (Step.mk t op).AddressesTool then restrict c k ops (t.perform c op).1
    else op :: restrict c k ops (t.perform c op).1

theorem addressing_respond (r : Response) :
    (t.respond c r).1.addressing = t.addressing.respond r := by
  simp only [addressing, length_slots_respond, active_respond, uploading_respond, motion_respond]
  cases r with
  | obey i => cases i <;> rfl
  | _ => rfl

theorem addressing_noteLine (cmd : Command) : (t.noteLine cmd).addressing = t.addressing := by
  obtain ⟨lastLine, heq⟩ := noteLine_eq (t := t) cmd
  rw [heq]
  rfl

/-- How operations are addressed evolves on its own. -/
theorem addressing_perform (op : Operation) :
    (t.perform c op).1.addressing = t.addressing.perform op := by
  cases op with
  | send cmd =>
    change (t.send c cmd).1.addressing = _
    rw [send_eq, addressing_respond, addressing_noteLine]
    rfl
  | receive line =>
    change (t.apply _).addressing = _
    simp only [addressing, length_slots_apply, active_apply, uploading_apply, motion_apply]
    rfl
  | reset =>
    change t.reset.addressing = _
    simp only [addressing, reset, List.length_map]
    rfl
  | _ => rfl

theorem getElem?_filaments_perform (hreset : op ≠ .reset) (k : Nat) :
    (t.perform c op).1.filaments[k]? =
      if t.active = k then t.filaments[k]?.map (·.perform t.motion t.uploading op)
      else t.filaments[k]? := by
  rw [filaments_perform hreset, List.getElem?_modify]
  split <;> simp

theorem filaments_reset : t.reset.filaments = List.replicate t.slots.length {} := by
  simp [filaments, reset, Function.comp_def, List.map_const']

/-- An operation that does not start over changes no record but that of the active extruder. -/
theorem getElem?_filaments_of_active_ne (hreset : op ≠ .reset) (hactive : t.active ≠ k) :
    (t.perform c op).1.filaments[k]? = t.filaments[k]? := by
  rw [getElem?_filaments_perform hreset, if_neg hactive]

/-- Two trackers address operations alike and have the same record of the extruder `k`. -/
structure AgreeOnTool (k : Nat) (s t : Tracker) : Prop where
  addressing : s.addressing = t.addressing
  filament : s.filaments[k]? = t.filaments[k]?

namespace AgreeOnTool

theorem perform (h : AgreeOnTool k s t) (op : Operation) :
    AgreeOnTool k (s.perform c op).1 (t.perform c op).1 where
  addressing := by rw [addressing_perform, addressing_perform, h.addressing]
  filament := by
    obtain ⟨hslots, hactive, huploading, hrelative, hextruder⟩ := Addressing.mk.inj h.addressing
    by_cases hreset : op = .reset
    · subst hreset
      change s.reset.filaments[k]? = t.reset.filaments[k]?
      rw [filaments_reset, filaments_reset, hslots]
    · have hmode : s.motion.movesFilamentRelatively = t.motion.movesFilamentRelatively := by
        rw [Motion.movesFilamentRelatively, Motion.movesFilamentRelatively, hrelative, hextruder]
      have hrecord (f : Filament) :
          f.perform s.motion s.uploading op = f.perform t.motion t.uploading op := by
        rw [huploading, Filament.perform_of_movesFilamentRelatively hmode]
      simp only [getElem?_filaments_perform hreset, hactive, h.filament, hrecord]

/-- What is addressed to another extruder may be left out. -/
theorem drop (h : AgreeOnTool k s t) (hactive : s.active ≠ k)
    (hop : (Step.mk s op).AddressesTool) : AgreeOnTool k (s.perform c op).1 t := by
  obtain ⟨hreset, hperform⟩ : op ≠ .reset ∧ s.addressing.perform op = s.addressing := by
    rcases Step.addressesTool_iff.mp hop with ⟨line, rfl⟩ | ⟨cmd, i, rfl, hresponse, hi⟩
    · exact ⟨nofun, rfl⟩
    · refine ⟨nofun, ?_⟩
      change s.addressing.respond (response s.uploading cmd) = _
      rw [hresponse]
      exact Addressing.obey_of_addressesTool hi _
  exact ⟨(addressing_perform op).trans (hperform.trans h.addressing),
    (getElem?_filaments_of_active_ne hreset hactive).trans h.filament⟩

theorem run (h : AgreeOnTool k s t) (ops : List Operation) :
    AgreeOnTool k (run c ops s) (Tracker.run c (restrict c k ops s) t) := by
  induction ops generalizing s t with
  | nil => exact h
  | cons op ops ih =>
    rw [restrict]
    split
    case isTrue hop => exact ih (h.drop hop.1 hop.2)
    case isFalse => exact ih (h.perform op)

end AgreeOnTool

/-- After a run the record of an extruder is what it is after the run from which all is deleted that
is addressed to another one. An operation that comes next and does not start over leaves it alone
where another extruder is active. -/
theorem filament_run_restrict (c : Config) (minimum k : Nat) (ops : List Operation) :
    (run c ops (start c minimum)).filaments[k]? =
        (run c (restrict c k ops (start c minimum)) (start c minimum)).filaments[k]? ∧
      ∀ op, op ≠ .reset → (run c ops (start c minimum)).active ≠ k →
        (run c (ops ++ [op]) (start c minimum)).filaments[k]? =
          (run c ops (start c minimum)).filaments[k]? := by
  refine ⟨(AgreeOnTool.run ⟨rfl, rfl⟩ ops).filament, fun op hreset hactive => ?_⟩
  rw [run_append]
  exact getElem?_filaments_of_active_ne hreset hactive

/-- Filament is fed with the first extruder, then with the second, whose position is reported and
relabelled. -/
def twoTools : List Operation :=
  [.send { g := some 1, words.e := some 4 }, .send { tool := some 1 },
    .send { g := some 1, words.e := some 7 }, .receive "ok E:3",
    .send { g := some 92, words.e := some 0 }]

theorem filament_after_twoTools :
    (run {} twoTools (start {} 0)).filaments[0]? =
        (run {} (restrict {} 0 twoTools (start {} 0)) (start {} 0)).filaments[0]? ∧
      (restrict {} 0 twoTools (start {} 0)).length = 2 ∧
      (run {} (twoTools ++ [.receive "ok E:9"]) (start {} 0)).filaments[0]? =
        (run {} twoTools (start {} 0)).filaments[0]? := by
  obtain ⟨hrestrict, hnext⟩ := filament_run_restrict {} 0 0 twoTools
  exact ⟨hrestrict, by decide +kernel, hnext _ nofun (by decide +kernel)⟩

end Tracker

end PrinterShadow
