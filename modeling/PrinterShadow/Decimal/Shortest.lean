import PrinterShadow.Decimal.Basic
import PrinterShadow.Decimal.Exact

/-!
The shortest decimal that reads back as a given double. For 1, 2, … digits the two neighbours of the
exact value on that decimal grid are read back; the first grid with a hit wins, of two hits the
nearer one, and of two equally near the larger. Seventeen digits always suffice; the exact value
stands behind the search, so that the result is a decimal of the double in any case.
-/

namespace PrinterShadow

namespace Decimal

/-- The place of the leading digit of `num / den`: the `k` with `10 ^ k ≤ num / den < 10 ^ (k + 1)`,
for positive `num` and `den`. -/
def leadingPlace (num den : Nat) : Int :=
  if den ≤ num then ((Nat.toDigits 10 (num / den)).length : Int) - 1
  else
    let places := (Nat.toDigits 10 (den / num)).length
    if num * Nat.pow 10 (places - 1) = den then 1 - places else -places

/-- Whether `n · 10 ^ place` reads as `x`. -/
def readsAs (x : Float) (place : Int) (n : Nat) : Bool :=
  (toFloat ⟨false, n, place⟩).toBits == x.toBits

/-- The multiple of `10 ^ place` that reads as `x` and is nearest to `x = num / den`, if a neighbour
of `x` on that grid reads as `x`. -/
def onGrid? (x : Float) (num den : Nat) (place : Int) : Option Decimal :=
  let scaledNum := num * Nat.pow 10 (-place).toNat
  let scaledDen := den * Nat.pow 10 place.toNat
  let low := scaledNum / scaledDen
  let high := low + 1
  let nearer := if 2 * (scaledNum % scaledDen) < scaledDen then low else high
  match readsAs x place low, readsAs x place high with
  | true, true => some ⟨false, nearer, place⟩
  | true, false => some ⟨false, low, place⟩
  | false, true => some ⟨false, high, place⟩
  | false, false => none

/-- The exact value of `mantissa · 2 ^ exponent` as a decimal. -/
def ofBinary (mantissa : Nat) (exponent : Int) : Decimal :=
  if exponent < 0 then ⟨false, mantissa * Nat.pow 5 exponent.natAbs, exponent⟩
  else ⟨false, mantissa * Nat.pow 2 exponent.natAbs, 0⟩

/-- The shortest decimal of the positive double `x = mantissa · 2 ^ exponent`. -/
def shortestOf (x : Float) (mantissa : Nat) (exponent : Int) : Decimal :=
  let num := Exact.numerator mantissa exponent
  let den := Exact.denominator exponent
  let lead := leadingPlace num den
  let found := (List.range 17).findSome? fun (n : Nat) => onGrid? x num den (lead - n)
  (found.getD (ofBinary mantissa exponent)).reduce

/-- The shortest decimal of the finite double `x = ± mantissa · 2 ^ exponent`. -/
def shortest (x : Float) (negative : Bool) (mantissa : Nat) (exponent : Int) : Decimal :=
  if mantissa = 0 then ⟨negative, 0, 0⟩
  else { shortestOf x.abs mantissa exponent with negative }

end Decimal

/-- The characters of a double in the fewest digits that read back, without an exponent and without
a fraction where the value is whole. -/
def shortestChars (x : Float) : List Char :=
  match Exact.ofFloat x with
  | .notANumber => ['N', 'a', 'N']
  | .infinite negative => Decimal.signed negative ['i', 'n', 'f']
  | .finite negative mantissa exponent =>
    (Decimal.shortest x negative mantissa exponent).positional

/-- The text of a double in the fewest digits that read back: `10`, `0.1`, `-0`, `inf`. -/
def shortestText (x : Float) : String :=
  String.ofList (shortestChars x)

end PrinterShadow
