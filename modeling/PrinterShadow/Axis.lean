/-!
The axes of the printer and values kept per Cartesian axis.
-/

namespace PrinterShadow

/-- The axes with travel limits and a home position. -/
inductive Cartesian where
  | x | y | z
  deriving DecidableEq, Repr

/-- An axis of the printer: a Cartesian one, or the extruder's. -/
inductive Axis where
  | cartesian (axis : Cartesian)
  | extruder
  deriving DecidableEq, Repr

namespace Cartesian

def all : List Cartesian := [.x, .y, .z]

theorem mem_all (a : Cartesian) : a ∈ all := by cases a <;> decide

def letter : Cartesian → Char
  | .x => 'X'
  | .y => 'Y'
  | .z => 'Z'

end Cartesian

namespace Axis

def all : List Axis := [.cartesian .x, .cartesian .y, .cartesian .z, .extruder]

theorem mem_all (a : Axis) : a ∈ all := by
  cases a with
  | cartesian a => cases a <;> decide
  | extruder => decide

def letter : Axis → Char
  | .cartesian a => a.letter
  | .extruder => 'E'

def index : Axis → Nat
  | .cartesian .x => 0
  | .cartesian .y => 1
  | .cartesian .z => 2
  | .extruder => 3

theorem getElem?_index (a : Axis) : all[a.index]? = some a := by
  cases a with
  | cartesian a => cases a <;> rfl
  | extruder => rfl

def isCartesian : Axis → Bool
  | .cartesian _ => true
  | .extruder => false

end Axis

/-- One value for each Cartesian axis. -/
@[ext]
structure Xyz (α : Type) where
  x : α
  y : α
  z : α
  deriving DecidableEq, Repr

namespace Xyz

variable {α : Type}

def get (v : Xyz α) : Cartesian → α
  | .x => v.x
  | .y => v.y
  | .z => v.z

def ofFn (f : Cartesian → α) : Xyz α :=
  ⟨f .x, f .y, f .z⟩

def replicate (value : α) : Xyz α :=
  ⟨value, value, value⟩

def set (v : Xyz α) (a : Cartesian) (value : α) : Xyz α :=
  ofFn fun b => if b = a then value else v.get b

def toList (v : Xyz α) : List α :=
  [v.x, v.y, v.z]

@[simp]
theorem get_ofFn (f : Cartesian → α) (a : Cartesian) : (ofFn f).get a = f a := by
  cases a <;> rfl

@[simp]
theorem ofFn_get (v : Xyz α) : ofFn v.get = v := rfl

@[simp]
theorem get_replicate (value : α) (a : Cartesian) : (replicate value).get a = value := by
  cases a <;> rfl

theorem get_set (v : Xyz α) (a b : Cartesian) (value : α) :
    (v.set a value).get b = if b = a then value else v.get b := by
  simp [set]

theorem get_ext {v w : Xyz α} (h : ∀ a, v.get a = w.get a) : v = w :=
  Xyz.ext (h .x) (h .y) (h .z)

end Xyz

end PrinterShadow
