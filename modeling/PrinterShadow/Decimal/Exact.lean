/-!
The exact value of a double: a whole number of powers of two, an infinity, or no number. Rounding a
double to a whole number or to decimals starts from here.
-/

namespace PrinterShadow

/-- What a double stands for. Zero is `finite` with mantissa 0. -/
inductive Exact where
  /-- The value `± mantissa · 2 ^ exponent`. -/
  | finite (negative : Bool) (mantissa : Nat) (exponent : Int)
  | infinite (negative : Bool)
  | notANumber
  deriving DecidableEq, Repr

namespace Exact

private def isNegative : Float.Model.UnpackedFloat.Sign → Bool
  | .negative => true
  | .positive => false

def ofFloat (x : Float) : Exact :=
  match x.toModel.unpack with
  | .notANumber => .notANumber
  | .infinity sign => .infinite (isNegative sign)
  | .zero sign => .finite (isNegative sign) 0 0
  | .finite sign mantissa exponent _ => .finite (isNegative sign) mantissa exponent

def numerator (mantissa : Nat) (exponent : Int) : Nat :=
  mantissa * Nat.pow 2 exponent.toNat

def denominator (exponent : Int) : Nat :=
  Nat.pow 2 (-exponent).toNat

end Exact

/-- The whole part of `x`, toward zero, as a 32-bit integer. What lies beyond the range goes to its
nearer end, and a value that is no number to 0. -/
def wholePart (x : Float) : Int32 :=
  match Exact.ofFloat x with
  | .notANumber => 0
  | .infinite negative => if negative then Int32.minValue else Int32.maxValue
  | .finite negative mantissa exponent =>
    let whole := Exact.numerator mantissa exponent / Exact.denominator exponent
    Int32.ofIntClamp (if negative then -whole else whole)

end PrinterShadow
