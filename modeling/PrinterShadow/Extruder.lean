/-!
Extruders: the heater of each, which the bed has too, and the record of its filament. A selector
names an extruder's slot, and every selector names one.
-/

namespace PrinterShadow

/-- A heater: what it is set to, what was last read, and the output on the common scale. -/
structure Heater where
  target : Float := 0
  reading : Float := 0
  output : Int32 := 0
  deriving DecidableEq, Repr

@[ext]
structure Filament where
  /-- The logical position. -/
  position : Float := 0
  /-- The furthest logical position after a move. -/
  furthest : Float := 0
  /-- What lies between the logical position and the firmware's. -/
  offset : Float := 0
  /-- The logical position up to which printing time is charged. -/
  charged : Float := 0
  /-- The position as the firmware counts it. -/
  counter : Float := 0
  deriving DecidableEq, Repr

structure Extruder where
  id : Nat
  heater : Heater := {}
  filament : Filament := {}
  deriving DecidableEq, Repr

/-- The slot that a selector names, of `slots` slots: a negative one the active slot, and one beyond
the slots the first. -/
def resolveSlot (selector : Int) (active slots : Nat) : Nat :=
  if selector < 0 then active
  else if slots ≤ selector.toNat then 0
  else selector.toNat

theorem resolveSlot_lt {selector : Int} {active slots : Nat} (h : active < slots) :
    resolveSlot selector active slots < slots := by
  unfold resolveSlot
  split
  · exact h
  · split <;> omega

end PrinterShadow
