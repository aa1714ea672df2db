import PrinterShadow.Json.Value

/-!
Records in JSON. A record is an object with its fields in any order, or an array of all fields in
the order in which they are declared. Members of an object that are no fields are passed over.
-/

namespace PrinterShadow

namespace Json

/-- The value of each field of a record that is there. -/
abbrev Fields := String → Option Json

/-- The fields of a record with the given names. An object names no field twice, and every name in
it is text; an array has one item for each field, or less where `mayEndEarly`. -/
def fields? (names : List String) (mayEndEarly : Bool) : Json → Option Fields
  | .object members =>
    if members.all (fun m => m.1.isSome) &&
        names.all (fun name => members.countP (fun m => m.1 = some name) ≤ 1) then
      some fun name => members.lookup (some name)
    else none
  | .array items =>
    if items.length = names.length || (mayEndEarly && items.length < names.length) then
      some fun name => (names.zip items).lookup name
    else none
  | _ => none

namespace Fields

variable {α : Type}

/-- A field that has to be there. -/
def need (fields : Fields) (name : String) (read : Json → Option α) : Option α :=
  (fields name).bind read

/-- A field that may be lacking or null. -/
def optional (fields : Fields) (name : String) (read : Json → Option α) : Option (Option α) :=
  match fields name with
  | none => some none
  | some value => if value.isNull then some none else (read value).map some

/-- A field with a default, which it takes where it is lacking. -/
def getD (fields : Fields) (name : String) (read : Json → Option α) (default : α) : Option α :=
  match fields name with
  | none => some default
  | some value => read value

end Fields

/-- One of several named values, written as its name or as an object with that name and null. -/
def choice? {α : Type} (values : List (String × α)) : Json → Option α
  | .string (some name) => values.lookup name
  | .object [(some name, .null)] => values.lookup name
  | _ => none

def toNat? (bits : Nat) (j : Json) : Option Nat :=
  (j.toIntIn? 0 (Nat.pow 2 bits - 1)).map Int.toNat

def toInt32? (j : Json) : Option Int32 :=
  (j.toIntIn? Int32.minValue.toInt Int32.maxValue.toInt).map Int32.ofInt

def toUInt16? (j : Json) : Option UInt16 :=
  (j.toNat? 16).map UInt16.ofNat

def toUInt32? (j : Json) : Option UInt32 :=
  (j.toNat? 32).map UInt32.ofNat

def toList? {α : Type} (read : Json → Option α) : Json → Option (List α)
  | .array items => items.mapM read
  | _ => none

end Json

end PrinterShadow
