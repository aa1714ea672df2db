import PrinterShadow.Decimal.Basic
import PrinterShadow.Decimal.Exact

/-!
Doubles written to a fixed number of decimal places. The exact value is rounded once, a tie going to
the even neighbour, and the sign is written even where the digits left are all zero.
-/

namespace PrinterShadow

/-- The whole number nearest to `num / den`, a tie going to the even one. -/
def roundDiv (num den : Nat) : Nat :=
  let quotient := num / den
  let twice := 2 * (num % den)
  if twice < den then quotient
  else if den < twice then quotient + 1
  else quotient + quotient % 2

/-- A double to a fixed number of places. -/
inductive Fixed where
  /-- The value `± units · 10 ^ -places`. -/
  | finite (negative : Bool) (units places : Nat)
  | infinite (negative : Bool)
  | notANumber
  deriving DecidableEq, Repr

namespace Fixed

def ofFloat (places : Nat) (x : Float) : Fixed :=
  match Exact.ofFloat x with
  | .notANumber => .notANumber
  | .infinite negative => .infinite negative
  | .finite negative mantissa exponent =>
    .finite negative
      (roundDiv (Exact.numerator mantissa exponent * Nat.pow 10 places)
        (Exact.denominator exponent))
      places

def chars : Fixed → List Char
  | .notANumber => ['N', 'a', 'N']
  | .infinite negative => Decimal.signed negative ['i', 'n', 'f']
  | .finite negative units places => Decimal.signed negative (Decimal.pointed places units)

/-- The double that the text reads as, where it is one number. -/
def toFloat? : Fixed → Option Float
  | .finite negative units places => some (Decimal.toFloat ⟨negative, units, -places⟩)
  | _ => none

end Fixed

/-- The text of `x` with `places` digits after the point: `-0.00`, `12.50`, `NaN`. -/
def fixedText (places : Nat) (x : Float) : String :=
  String.ofList (Fixed.ofFloat places x).chars

end PrinterShadow
