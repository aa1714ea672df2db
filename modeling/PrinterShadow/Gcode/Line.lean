import PrinterShadow.Command.Basic
import PrinterShadow.Decimal.Fixed

/-!
G-code lines that are written for the printer: a G number and words, each a letter and a number to a
fixed number of places.
-/

namespace PrinterShadow

namespace Gcode

structure Word where
  letter : Char
  value : Fixed
  deriving DecidableEq, Repr

/-- A word with a value to a number of places. -/
def Word.ofFloat (letter : Char) (places : Nat) (value : Float) : Word :=
  ⟨letter, .ofFloat places value⟩

structure Line where
  g : UInt16
  words : List Word
  deriving DecidableEq, Repr

namespace Line

def chars (line : Line) : List Char :=
  'G' :: Nat.toDigits 10 line.g.toNat ++
    line.words.flatMap fun w => ' ' :: w.letter :: w.value.chars

def render (line : Line) : String :=
  String.ofList line.chars

def number? (line : Line) (letter : Char) : Option Float :=
  (line.words.find? fun w => w.letter = letter).bind fun w => w.value.toFloat?

def command (line : Line) : Command where
  g := some line.g
  words :=
    { xyz := .ofFn fun a => line.number? a.letter
      e := line.number? 'E'
      feed := line.number? 'F'
      s := line.number? 'S' }

end Line

end Gcode

end PrinterShadow
