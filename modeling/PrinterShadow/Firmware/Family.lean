/-!
Families of firmware, told apart by the name that a firmware reports. Each has its own scale for the
heater output.
-/

namespace PrinterShadow

namespace Firmware

inductive Family where
  | repetier | marlin | unknown
  deriving DecidableEq, Repr

structure Profile where
  family : Family
  /-- A name that holds this text belongs to the family. -/
  marker : String
  /-- The factor from reported to common heater output. -/
  outputScale : Int
  deriving DecidableEq, Repr

/-- The known profiles. A name belongs to the first whose marker it holds. Marlin reports heater
output up to 127. -/
def profiles : List Profile :=
  [⟨.marlin, "Marlin", 2⟩, ⟨.repetier, "Repetier", 1⟩]

/-- The conventions of a firmware that nothing is known of. -/
def unknownProfile : Profile := ⟨.unknown, "", 1⟩

def occursIn (part : List Char) : List Char → Bool
  | [] => part.isEmpty
  | c :: rest => part.isPrefixOf (c :: rest) || occursIn part rest

namespace Family

def name : Family → String
  | .repetier => "Repetier"
  | .marlin => "Marlin"
  | .unknown => "Unknown"

def classify (reported : String) : Family :=
  match profiles.find? fun p => occursIn p.marker.toList reported.toList with
  | some p => p.family
  | none => .unknown

def profile (f : Family) : Profile :=
  (profiles.find? fun p => p.family = f).getD unknownProfile

/-- The place of the profile among the known ones. -/
def profileIndex? (f : Family) : Option Nat :=
  profiles.findIdx? fun p => p.family = f

/-- Heater output on the common scale, kept within the 32-bit integers. -/
def normalizeOutput (f : Family) (reported : Int32) : Int32 :=
  Int32.ofIntClamp (reported.toInt * f.profile.outputScale)

end Family

/-- What a firmware has said about itself. -/
structure Identity where
  name : String := ""
  url : String := ""
  protocolVersion : String := ""
  machineType : String := ""
  extruderCount : Int32 := 0
  family : Family := .unknown
  deriving DecidableEq, Repr

end Firmware

end PrinterShadow
