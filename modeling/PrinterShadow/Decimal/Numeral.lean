import PrinterShadow.Decimal.Basic

/-!
Numerals at the front of a text: an optional sign, digits with an optional fraction, at least one
digit in all, and an exponent where it is complete. What follows the numeral does not matter, so
`7./210` reads as 7 and `2em` as 2.
-/

namespace PrinterShadow

namespace Numeral

/-- Splits off a sign; true stands for minus. -/
def sign : List Char → Bool × List Char
  | '-' :: rest => (true, rest)
  | '+' :: rest => (false, rest)
  | text => (false, text)

/-- Splits off the longest run of digits. -/
def digits (text : List Char) : List Char × List Char :=
  (text.takeWhile Char.isDigit, text.dropWhile Char.isDigit)

theorem digits_append (text : List Char) : (digits text).1 ++ (digits text).2 = text :=
  List.takeWhile_append_dropWhile

theorem isDigit_of_mem_digits {text : List Char} {c : Char} (h : c ∈ (digits text).1) :
    c.isDigit = true := by
  have : (text.takeWhile Char.isDigit).all Char.isDigit := List.all_takeWhile
  exact List.all_eq_true.mp this c h

/-- Splits off a point and the digits after it, of which there may be none. -/
def fraction : List Char → List Char × List Char
  | '.' :: rest => digits rest
  | text => ([], text)

/-- Splits off an exponent: the letter, an optional sign and at least one digit. Where a digit is
lacking, the letter does not belong to the numeral. -/
def exponent : List Char → Int × List Char
  | [] => (0, [])
  | c :: rest =>
    let (negative, afterSign) := sign rest
    let (run, after) := digits afterSign
    if (c = 'e' ∨ c = 'E') ∧ run ≠ [] then
      let magnitude := Nat.ofDigitChars 10 run 0
      (if negative then -magnitude else magnitude, after)
    else (0, c :: rest)

/-- The decimal that the longest numeral at the front of the text denotes, and what follows it. -/
def split? (text : List Char) : Option (Decimal × List Char) :=
  let (negative, afterSign) := sign text
  let (whole, afterWhole) := digits afterSign
  let (frac, afterFrac) := fraction afterWhole
  if whole = [] ∧ frac = [] then none
  else
    let (power, rest) := exponent afterFrac
    let significand := Nat.ofDigitChars 10 (whole ++ frac) 0
    some (⟨negative, significand, power - frac.length⟩, rest)

end Numeral

/-- The value of the longest numeral at the front of a text. -/
def leadingNumber? (text : List Char) : Option Float :=
  (Numeral.split? text).map fun (decimal, _) => decimal.toFloat

end PrinterShadow
