import PrinterShadow.Tracker.Operation

/-!
Runs of a tracker, and conditions met at every step of one.
-/

namespace PrinterShadow

namespace Tracker

variable {c : Config} {t : Tracker}

@[simp]
theorem run_nil : run c [] t = t := rfl

@[simp]
theorem run_cons (op : Operation) (ops : List Operation) :
    run c (op :: ops) t = run c ops (t.perform c op).1 := rfl

@[simp]
theorem run_append (ops ops' : List Operation) :
    run c (ops ++ ops') t = run c ops' (run c ops t) :=
  List.foldl_append

/-- The condition is met by every operation of the list at the tracker that it is asked of. -/
def Along (c : Config) (P : Tracker → Operation → Prop) : List Operation → Tracker → Prop
  | [], _ => True
  | op :: ops, t => P t op ∧ Along c P ops (t.perform c op).1

instance Along.decidable (P : Tracker → Operation → Prop) [∀ t op, Decidable (P t op)] :
    (ops : List Operation) → (t : Tracker) → Decidable (Along c P ops t)
  | [], _ => .isTrue trivial
  | op :: ops, t =>
    have := Along.decidable P ops (t.perform c op).1
    inferInstanceAs (Decidable (P t op ∧ Along c P ops (t.perform c op).1))

theorem along_of_forall {P : Tracker → Operation → Prop} {ops : List Operation}
    (h : ∀ op ∈ ops, ∀ t, P t op) : Along c P ops t := by
  induction ops generalizing t with
  | nil => trivial
  | cons op ops ih =>
    exact ⟨h op List.mem_cons_self t, ih fun op' hmem => h op' (List.mem_cons_of_mem op hmem)⟩

theorem Along.and {P Q : Tracker → Operation → Prop} {ops : List Operation} (h : Along c P ops t)
    (h' : Along c Q ops t) : Along c (fun t op => P t op ∧ Q t op) ops t := by
  induction ops generalizing t with
  | nil => trivial
  | cons op ops ih => exact ⟨⟨h.1, h'.1⟩, ih h.2 h'.2⟩

/-- What every step preserves that meets a condition, a run that meets it along the way does. -/
theorem Along.invariant {P : Tracker → Operation → Prop} {I : Tracker → Prop}
    (hstep : ∀ t op, P t op → I t → I (t.perform c op).1) {ops : List Operation}
    (h : Along c P ops t) (hI : I t) : I (run c ops t) := by
  induction ops generalizing t with
  | nil => exact hI
  | cons op ops ih => exact ih h.2 (hstep t op h.1 hI)

theorem run_invariant {I : Tracker → Prop} {ops : List Operation}
    (hstep : ∀ op ∈ ops, ∀ t, I t → I (t.perform c op).1) (hI : I t) : I (run c ops t) :=
  Along.invariant (P := fun t op => I t → I (t.perform c op).1) (fun _ _ h => h)
    (along_of_forall hstep) hI

end Tracker

end PrinterShadow
