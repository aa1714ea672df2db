/-!
Hexadecimal digits, in either case where they are read and in upper case where they are written.
-/

namespace PrinterShadow

namespace Hex

/-- The value of a digit. -/
def value? (c : Char) : Option Nat :=
  if '0' ≤ c ∧ c ≤ '9' then some (c.toNat - '0'.toNat)
  else if 'a' ≤ c ∧ c ≤ 'f' then some (c.toNat - 'a'.toNat + 10)
  else if 'A' ≤ c ∧ c ≤ 'F' then some (c.toNat - 'A'.toNat + 10)
  else none

/-- The number that digits write, the first of them the highest. -/
def number? (digits : List Char) : Option Nat :=
  digits.foldlM (fun n c => (value? c).map (16 * n + ·)) 0

/-- The character whose code the digits write. -/
def char? (digits : List Char) : Option Char := do
  let code ← number? digits
  if code.isValidChar then some (Char.ofNat code) else none

/-- The last four digits of a number. -/
def fourDigits (n : Nat) : List Char :=
  [n / 4096, n / 256, n / 16, n].map fun part => (Nat.digitChar (part % 16)).toUpper

end Hex

end PrinterShadow
