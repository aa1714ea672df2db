import PrinterShadow.Axis

/-!
Commands to the printer, split into words. A word that the command does not have is `none`.
-/

namespace PrinterShadow

/-- The words that give a command its numbers. -/
structure Words where
  xyz : Xyz (Option Float) := ⟨none, none, none⟩
  e : Option Float := none
  feed : Option Float := none
  s : Option Float := none
  deriving DecidableEq, Repr

structure Command where
  /-- The text of a directive that is meant for the host alone. -/
  directive : Option String := none
  lineNumber : Option UInt32 := none
  g : Option UInt16 := none
  m : Option UInt16 := none
  tool : Option Int32 := none
  words : Words := {}
  deriving DecidableEq, Repr

namespace Words

def names (w : Words) (a : Cartesian) : Bool :=
  (w.xyz.get a).isSome

def namesNone (w : Words) : Bool :=
  Cartesian.all.all fun a => !w.names a

/-- Whether homing covers an axis: those named, or all where none is. -/
def covers (w : Words) (a : Cartesian) : Bool :=
  w.namesNone || w.names a

end Words

end PrinterShadow
