import PrinterShadow.Decimal.Basic

/-!
JSON documents. Numbers are kept as they are written, because whether a number has a fraction and
whether it is `-0` decide which records it can stand in. Strings whose escapes name half a surrogate
pair are no text, yet they may stand where nobody reads them.
-/

namespace PrinterShadow

/-- A JSON number: its value, and whether it is written without fraction and exponent. -/
structure Json.Number where
  value : Decimal
  isWhole : Bool
  deriving DecidableEq, Repr

inductive Json where
  | null
  | bool (value : Bool)
  | number (value : Json.Number)
  | string (text : Option String)
  | array (items : List Json)
  | object (members : List (Option String × Json))

namespace Json

/-- The double that a number reads as; none where it is too large for one. -/
def Number.toFloat? (n : Number) : Option Float :=
  let x := n.value.toFloat
  if x.isFinite then some x else none

/-- The integer that a number is. `-0` has a sign, so it is no integer. -/
def Number.toInt? (n : Number) : Option Int :=
  if n.isWhole then
    if n.value.negative then
      if n.value.significand = 0 then none else some (-n.value.significand)
    else some n.value.significand
  else none

def toFloat? : Json → Option Float
  | .number n => n.toFloat?
  | _ => none

/-- The integer that a document is, if it lies between the bounds. -/
def toIntIn? (low high : Int) : Json → Option Int
  | .number n => n.toInt?.filter fun i => low ≤ i && i ≤ high
  | _ => none

def toBool? : Json → Option Bool
  | .bool b => some b
  | _ => none

def toText? : Json → Option String
  | .string text => text
  | _ => none

def isNull : Json → Bool
  | .null => true
  | _ => false

/-- The value of a member of an object; of members with one name, the first. -/
def member? (name : String) : Json → Option Json
  | .object members => members.lookup (some name)
  | _ => none

end Json

end PrinterShadow
