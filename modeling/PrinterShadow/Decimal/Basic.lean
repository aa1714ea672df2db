/-!
Decimals: a sign, a significand and a power of ten. A decimal is read as the nearest double and is
written positionally, without an exponent. Reading starts from the reduced form, so decimals of one
value read as one double, however they are written.
-/

namespace PrinterShadow

/-- The decimal `± significand · 10 ^ exponent`. Zero has a sign too. -/
structure Decimal where
  negative : Bool
  significand : Nat
  exponent : Int
  deriving DecidableEq, Repr

namespace Decimal

/-- Moves the zeros at the end of a positive significand into the exponent. -/
def stripZeros (significand : Nat) (exponent : Int) : Nat × Int :=
  if 0 < significand ∧ significand % 10 = 0 then stripZeros (significand / 10) (exponent + 1)
  else (significand, exponent)
termination_by significand
decreasing_by omega

/-- The form of a value in which the significand does not end in zero, and the exponent of zero is
zero. -/
def reduce (d : Decimal) : Decimal :=
  if d.significand = 0 then { d with exponent := 0 }
  else
    let (significand, exponent) := stripZeros d.significand d.exponent
    { d with significand, exponent }

/-- The nearest double, a tie going to the even one. Zero keeps its sign, and what lies beyond the
largest double is infinite. -/
def toFloat (d : Decimal) : Float :=
  let r := d.reduce
  let magnitude := Float.ofScientific r.significand (r.exponent < 0) r.exponent.natAbs
  if d.negative then -magnitude else magnitude

/-- The last `width` decimal digits of `n`, with leading zeros. -/
def lastDigits : Nat → Nat → List Char
  | 0, _ => []
  | width + 1, n => lastDigits width (n / 10) ++ [Nat.digitChar (n % 10)]

theorem length_lastDigits (width n : Nat) : (lastDigits width n).length = width := by
  induction width generalizing n with
  | zero => rfl
  | succ width ih => simp [lastDigits, ih]

/-- `n` units of `10 ^ -places`: the whole part, a point, and `places` digits; no point where there
are no places. -/
def pointed (places n : Nat) : List Char :=
  match places with
  | 0 => Nat.toDigits 10 n
  | _ => Nat.toDigits 10 (n / Nat.pow 10 places) ++ '.' :: lastDigits places n

def signed (negative : Bool) (digits : List Char) : List Char :=
  if negative then '-' :: digits else digits

/-- The digits of the value without an exponent: `-0.05`, `1200`. -/
def positional (d : Decimal) : List Char :=
  signed d.negative <|
    if d.exponent < 0 then pointed d.exponent.natAbs d.significand
    else Nat.toDigits 10 (d.significand * Nat.pow 10 d.exponent.natAbs)

end Decimal

end PrinterShadow
