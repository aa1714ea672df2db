import PrinterShadow.Decimal.Shortest
import PrinterShadow.Error
import PrinterShadow.Toml.Document

/-!
Configurations as TOML text. What a text leaves out takes its default, except that an axis is given
with all of its numbers; keys without a meaning are passed over. Reading checks the configuration,
writing does not.
-/

namespace PrinterShadow

namespace Config

open Toml (Item Entries)

/-! ## Reading -/

/-- A number, which may be written as an integer. -/
def number? : Item → Option Float
  | .scalar (.float x) => some x
  | .scalar (.integer i) =>
    some (if i < 0 then -Float.ofNat i.natAbs else Float.ofNat i.natAbs)
  | _ => none

/-- The limits of an axis: a table of all three numbers, or an array that starts with them. -/
def limits? : Item → Option Limits
  | .table _ entries => do
    let lower ← (entries.lookup "min").bind number?
    let upper ← (entries.lookup "max").bind number?
    let home ← (entries.lookup "home").bind number?
    some ⟨lower, upper, home⟩
  | .array (lower :: upper :: home :: _) => do
    some ⟨← number? lower, ← number? upper, ← number? home⟩
  | _ => none

def text? : Item → Option String
  | .text value => some value
  | _ => none

def count? : Item → Option Nat
  | .scalar (.integer i) => if 0 ≤ i then some i.toNat else none
  | _ => none

/-- The value of a key as `read` takes it; the default where the key is lacking. -/
def entry? {α : Type} (read : Item → Option α) (default : α) (key : String) (entries : Entries) :
    Option α :=
  match entries.lookup key with
  | none => some default
  | some item => read item

def ofEntries? (entries : Entries) : Option Config := do
  let d : Config := {}
  some
    { name := ← entry? text? d.name "name" entries
      limits :=
        ⟨← entry? limits? d.limits.x "x" entries, ← entry? limits? d.limits.y "y" entries,
          ← entry? limits? d.limits.z "z" entries⟩
      xyJogSpeed := ← entry? number? d.xyJogSpeed "xy_jog_speed" entries
      zJogSpeed := ← entry? number? d.zJogSpeed "z_jog_speed" entries
      extruderCount := ← entry? count? d.extruderCount "extruder_count" entries }

/-- The configuration that a text describes, if it has no faults. -/
def ofToml (text : String) : Except ConfigError Config :=
  match (Toml.parse? text).bind ofEntries? with
  | none => .error .malformed
  | some c => c.validate.map fun () => c

/-- The configuration in a file, given its content; none where there is no such file. -/
def ofFile (path : String) : Option ByteArray → Except ConfigError Config
  | none => .error (.unreadable path "No such file or directory (os error 2)")
  | some bytes =>
    match String.fromUTF8? bytes with
    | some text => ofToml text
    | none => .error (.unreadable path "stream did not contain valid UTF-8")

/-! ## Writing -/

/-- A float: its shortest digits with a fraction in any case, and no sign on what is no number. -/
def floatChars (x : Float) : List Char :=
  if x.isNaN then ['n', 'a', 'n']
  else
    let chars := shortestChars x
    if x.isFinite && !chars.contains '.' then chars ++ ['.', '0'] else chars

def lineChars (key : String) (value : List Char) : List Char :=
  key.toList ++ [' ', '=', ' '] ++ value ++ ['\n']

/-- The table of one axis, after an empty line. -/
def limitsChars (a : Cartesian) (l : Limits) : List Char :=
  ['\n', '[', a.letter.toLower, ']', '\n'] ++ lineChars "min" (floatChars l.lower) ++
    lineChars "max" (floatChars l.upper) ++ lineChars "home" (floatChars l.home)

/-- The text of a configuration; none where its number of extruders is beyond 64-bit integers. -/
def toToml (c : Config) : Except ConfigError String :=
  if c.extruderCount ≤ Int64.maxValue.toInt then
    .ok <| String.ofList <|
      lineChars "name" (Toml.Text.write c.name.toList) ++
      lineChars "xy_jog_speed" (floatChars c.xyJogSpeed) ++
      lineChars "z_jog_speed" (floatChars c.zJogSpeed) ++
      lineChars "extruder_count" (Nat.toDigits 10 c.extruderCount) ++
      Cartesian.all.flatMap fun a => limitsChars a (c.limits.get a)
  else .error .unwritable

end Config

end PrinterShadow
