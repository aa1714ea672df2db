import PrinterShadow.Command.Basic

/-!
What a command asks for. A G word decides before an M word, and an M word before a bare tool word;
a command that asks for nothing known does nothing.
-/

namespace PrinterShadow

inductive Instruction where
  | linearMove (words : Words)
  /-- To the home position or to the upper bound. -/
  | home (words : Words) (toUpper : Bool)
  /-- Gives the present position new coordinates. -/
  | setPosition (words : Words)
  /-- Whether all axes move relatively. -/
  | positioning (relative : Bool)
  /-- Whether the extruder moves relatively. -/
  | extrusion (relative : Bool)
  | upload (start : Bool)
  | power (on : Bool)
  | heat (tool : Option Int32) (target : Option Float)
  | heatBed (target : Option Float)
  | fanOn (voltage : Option Float)
  | fanOff
  | setLineNumber (number : UInt32)
  | debug (level : Option Float)
  | monitor (extruder : Option Float)
  | selectTool (tool : Int32)
  | nothing
  deriving DecidableEq, Repr

namespace Instruction

def ofG (words : Words) (number : Nat) : Instruction :=
  match number with
  | 0 | 1 => .linearMove words
  | 28 | 161 => .home words false
  | 162 => .home words true
  | 90 => .positioning false
  | 91 => .positioning true
  | 92 => .setPosition words
  | _ => .nothing

def ofM (c : Command) (number : Nat) : Instruction :=
  match number with
  | 28 => .upload true
  | 29 => .upload false
  | 80 => .power true
  | 81 => .power false
  | 82 => .extrusion false
  | 83 => .extrusion true
  | 104 | 109 => .heat c.tool c.words.s
  | 106 => .fanOn c.words.s
  | 107 => .fanOff
  | 110 => .setLineNumber (c.lineNumber.getD 0)
  | 111 => .debug c.words.s
  | 140 | 190 => .heatBed c.words.s
  | 203 => .monitor c.words.s
  | _ => .nothing

end Instruction

namespace Command

/-- What a command without a directive asks for. -/
def instruction (c : Command) : Instruction :=
  match c.g, c.m, c.tool with
  | some g, _, _ => .ofG c.words g.toNat
  | none, some m, _ => .ofM c m.toNat
  | none, none, some tool => .selectTool tool
  | none, none, none => .nothing

/-- Whether a command is kept from the printer while a file is uploaded: all but the end of the
upload. -/
def isGated (c : Command) : Bool :=
  c.m ≠ some 29

/-- Whether a character counts as a blank in the text of a directive. -/
def isDirectiveBlank (c : Char) : Bool :=
  let n := c.toNat
  (9 ≤ n && n ≤ 13) || n = 0x20 || n = 0x85 || n = 0xA0 || n = 0x1680 ||
    (0x2000 ≤ n && n ≤ 0x200A) || n = 0x2028 || n = 0x2029 || n = 0x202F || n = 0x205F ||
    n = 0x3000

def directiveWord (text : String) : List Char :=
  (text.toList.dropWhile isDirectiveBlank).takeWhile (!isDirectiveBlank ·)

def confirmsHome (text : String) : Bool :=
  directiveWord text = ['@', 'i', 's', 'a', 't', 'h', 'o', 'm', 'e']

end Command

end PrinterShadow
