import Mathlib.Data.List.Induction
import PrinterShadow.Proofs.Command.Instruction
import PrinterShadow.Proofs.Tracker.Filaments

/-!
The history of a run: its steps, the latest first, each an operation with the tracker that it was
asked of. What a step did is told from the words of the command that it obeyed. A relation between
the steps since a run last started over and the tracker after it is carried from step to step by
`sinceReset_invariant`.
-/

namespace PrinterShadow

/-- A step of a run: an operation and the tracker that it is asked of. -/
structure Step where
  before : Tracker
  op : Operation

def Operation.isReset : Operation → Bool
  | .reset => true
  | _ => false

theorem Operation.isReset_eq_false_iff {op : Operation} : op.isReset = false ↔ op ≠ .reset := by
  cases op <;> simp [isReset]

theorem Tracker.response_eq_obey_iff {uploading : Bool} {cmd : Command} {i : Instruction} :
    response uploading cmd = .obey i ↔
      (cmd.directive = none ∧ (uploading = true → cmd.m = some 29)) ∧ i = cmd.instruction := by
  unfold response
  cases hdirective : cmd.directive with
  | some text =>
    dsimp only
    split <;> simp
  | none =>
    dsimp only
    by_cases hgate : uploading = true → cmd.m = some 29
    · have hopen : (uploading && cmd.isGated) = false := by
        simpa [Command.isGated] using hgate
      simpa [hopen, eq_comm] using fun _ => hgate
    · have hshut : (uploading && cmd.isGated) = true := by
        simpa [Command.isGated] using hgate
      simp [hshut, hgate]

namespace Step

variable {c : Config} {s : Step} {cmd : Command} {w : Words}

def after (c : Config) (s : Step) : Tracker := (s.before.perform c s.op).1

/-- The command that a step obeys: one that is sent, is no directive, and is not kept back while a
file is being uploaded. -/
def obeyed? (s : Step) : Option Command :=
  match s.op with
  | .send cmd =>
    if cmd.directive = none ∧ (s.before.uploading = true → cmd.m = some 29) then some cmd else none
  | _ => none

theorem obeyed?_eq_some_iff :
    s.obeyed? = some cmd ↔
      s.op = .send cmd ∧ Tracker.response s.before.uploading cmd = .obey cmd.instruction := by
  rw [Tracker.response_eq_obey_iff]
  unfold obeyed?
  cases s.op with
  | send cmd' =>
    simp only [Option.ite_none_right_eq_some, Option.some.injEq, Operation.send.injEq, and_true]
    constructor
    · rintro ⟨h, rfl⟩
      exact ⟨rfl, h⟩
    · rintro ⟨rfl, h⟩
      exact ⟨h, rfl⟩
  | _ => simp

theorem directive_of_obeyed? (h : s.obeyed? = some cmd) : cmd.directive = none :=
  (Tracker.response_eq_obey_iff.mp (obeyed?_eq_some_iff.mp h).2).1.1

/-- A condition on the command that a step obeys, as one on the instruction that it follows. -/
theorem exists_obeyed_iff {p : Command → Prop} {q : Instruction → Prop}
    (h : ∀ cmd, p cmd ↔ q cmd.instruction) :
    (∃ cmd ∈ s.obeyed?, p cmd) ↔
      ∃ cmd i, s.op = .send cmd ∧ Tracker.response s.before.uploading cmd = .obey i ∧ q i := by
  simp only [Option.mem_def, obeyed?_eq_some_iff]
  constructor
  · rintro ⟨cmd, ⟨hop, hresponse⟩, hp⟩
    exact ⟨cmd, cmd.instruction, hop, hresponse, (h cmd).mp hp⟩
  · rintro ⟨cmd, i, hop, hresponse, hq⟩
    obtain rfl := Tracker.eq_instruction_of_response hresponse
    exact ⟨cmd, ⟨hop, hresponse⟩, (h cmd).mpr hq⟩

/-- The words of the linear move that a step makes. -/
def move? (s : Step) : Option Words :=
  (s.obeyed?.filter fun cmd => cmd.g = some 0 ∨ cmd.g = some 1).map Command.words

theorem move?_eq_some_iff :
    s.move? = some w ↔
      ∃ cmd, s.op = .send cmd ∧
        Tracker.response s.before.uploading cmd = .obey (.linearMove w) := by
  have hobeyed := exists_obeyed_iff (s := s) (q := (· = .linearMove w)) fun cmd =>
    (Command.instruction_eq_linearMove_iff (w := w)).symm
  simpa [move?, Option.filter_eq_some_iff, and_assoc, eq_comm (a := w)] using hobeyed

/-- Whether a step homes the active extruder. -/
def HomesFilament (s : Step) : Prop :=
  ∃ cmd ∈ s.obeyed?, (cmd.g = some 28 ∨ cmd.g = some 161) ∧ cmd.words.e.isSome

instance (s : Step) : Decidable s.HomesFilament := inferInstanceAs (Decidable (∃ _ ∈ _, _))

theorem homesFilament_iff :
    s.HomesFilament ↔
      ∃ cmd w, s.op = .send cmd ∧
        Tracker.response s.before.uploading cmd = .obey (.home w false) ∧ w.e.isSome := by
  refine (exists_obeyed_iff (q := fun i => ∃ w, i = .home w false ∧ w.e.isSome)
    fun cmd => ?_).trans ?_
  · simp [Command.instruction_eq_home_iff]
  · simp

end Step

/-- Whether a history, the latest step first, has an event and since then only steps that keep what
the event brought about. -/
def Since (keeps event : Step → Prop) (h : List Step) : Prop :=
  ∃ later s earlier, h = later ++ s :: earlier ∧ event s ∧ ∀ s' ∈ later, keeps s'

theorem since_nil {keeps event : Step → Prop} : ¬ Since keeps event [] := by
  rintro ⟨later, s, earlier, heq, -⟩
  cases later <;> nomatch heq

theorem since_cons_iff {keeps event : Step → Prop} {s : Step} {h : List Step} :
    Since keeps event (s :: h) ↔ event s ∨ keeps s ∧ Since keeps event h := by
  constructor
  · rintro ⟨later, s', earlier, heq, hevent, hkeeps⟩
    cases later with
    | nil =>
      obtain ⟨rfl, rfl⟩ := List.cons.inj heq
      exact .inl hevent
    | cons first later =>
      obtain ⟨rfl, rfl⟩ := List.cons.inj heq
      refine .inr ⟨hkeeps s List.mem_cons_self, later, s', earlier, rfl, hevent, fun s hs => ?_⟩
      exact hkeeps s (List.mem_cons_of_mem _ hs)
  · rintro (hevent | ⟨hs, later, s', earlier, rfl, hevent, hkeeps⟩)
    · exact ⟨[], s, h, rfl, hevent, List.forall_mem_nil _⟩
    · exact ⟨s :: later, s', earlier, rfl, hevent, List.forall_mem_cons.mpr ⟨hs, hkeeps⟩⟩

instance Since.decidable (keeps event : Step → Prop) [DecidablePred keeps] [DecidablePred event] :
    (h : List Step) → Decidable (Since keeps event h)
  | [] => .isFalse since_nil
  | s :: h =>
    have := Since.decidable keeps event h
    decidable_of_iff (event s ∨ keeps s ∧ Since keeps event h) since_cons_iff.symm

namespace Tracker

variable {c : Config} {t : Tracker}

/-- The steps of a run, the latest first. -/
def history (c : Config) : List Operation → Tracker → List Step
  | [], _ => []
  | op :: ops, t => history c ops (t.perform c op).1 ++ [⟨t, op⟩]

theorem history_concat (ops : List Operation) (op : Operation) :
    history c (ops ++ [op]) t = ⟨run c ops t, op⟩ :: history c ops t := by
  induction ops generalizing t with
  | nil => rfl
  | cons op' ops ih => rw [List.cons_append, history, ih, history, run_cons, List.cons_append]

/-- The steps since a run last started over, the latest first. -/
def sinceReset (c : Config) (ops : List Operation) (t : Tracker) : List Step :=
  (history c ops t).takeWhile fun s => !s.op.isReset

theorem sinceReset_concat_reset (ops : List Operation) :
    sinceReset c (ops ++ [.reset]) t = [] := by
  rw [sinceReset, history_concat]
  rfl

theorem sinceReset_concat {ops : List Operation} {op : Operation} (hop : op ≠ .reset) :
    sinceReset c (ops ++ [op]) t = ⟨run c ops t, op⟩ :: sinceReset c ops t := by
  rw [sinceReset, history_concat, List.takeWhile_cons, Operation.isReset_eq_false_iff.mpr hop]
  rfl

/-- What holds of a start without a history, and what every step preserves that lengthens the
history or, where it starts over, empties it, holds after every run of its steps since it last
started over. -/
theorem sinceReset_invariant {I : List Step → Tracker → Prop} (hstart : I [] t)
    (hreset : ∀ h t, I h t → I [] t.reset)
    (hstep : ∀ h t op, op ≠ .reset → I h t → I (⟨t, op⟩ :: h) (t.perform c op).1)
    (ops : List Operation) : I (sinceReset c ops t) (run c ops t) := by
  -- the latest step is the last one of the list, so the run is taken apart from its end
  induction ops using List.reverseRecOn with
  | nil => exact hstart
  | append_singleton ops op ih =>
    rw [run_append, run_cons, run_nil]
    by_cases hop : op = .reset
    · subst hop
      rw [sinceReset_concat_reset]
      exact hreset _ _ ih
    · rw [sinceReset_concat hop]
      exact hstep _ _ op hop ih

/-- What the latest event decides, if nothing else but starting over changes it, is told after every
run from the latest event since the run last started over. -/
theorem sinceReset_latest {α β : Type} {event? : Step → Option α} (read : Tracker → β)
    (f : Option α → β) (hstart : read t = f none) (hreset : ∀ t : Tracker, read t.reset = f none)
    (hstep : ∀ s : Step, s.op ≠ .reset →
      read (s.after c) = ((event? s).map fun x => f (some x)).getD (read s.before))
    (ops : List Operation) :
    read (run c ops t) = f ((sinceReset c ops t).findSome? event?) := by
  refine sinceReset_invariant (I := fun h t => read t = f (h.findSome? event?)) hstart
    (fun _ t _ => hreset t) (fun h t op hop ih => ?_) ops
  have hafter := hstep ⟨t, op⟩ hop
  change read (t.perform c op).1 = _ at hafter
  rw [hafter, List.findSome?_cons]
  cases event? ⟨t, op⟩ with
  | none => exact ih
  | some x => rfl

end Tracker

end PrinterShadow
