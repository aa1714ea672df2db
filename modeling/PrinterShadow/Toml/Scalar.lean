import PrinterShadow.Decimal.Numeral
import PrinterShadow.Text.Hex

/-!
Scalars in TOML that are written without quotes: truth values, whole numbers, floats and moments in
time. Each is read from all the characters that stand together.
-/

namespace PrinterShadow

namespace Toml

inductive Scalar where
  | boolean (value : Bool)
  | integer (value : Int)
  | float (value : Float)
  /-- A date, a time, or both. -/
  | moment
  deriving DecidableEq, Repr

namespace Scalar

/-! ## Numbers -/

/-- The digits of a run in which single underscores may stand between digits. -/
def grouped? (isDigit : Char → Bool) : List Char → Option (List Char)
  | [] => none
  | [c] => if isDigit c then some [c] else none
  | c :: '_' :: rest => if isDigit c then (grouped? isDigit rest).map (c :: ·) else none
  | c :: rest => if isDigit c then (grouped? isDigit rest).map (c :: ·) else none

/-- The digits of a whole part, which starts with zero only where it is zero. -/
def whole? (token : List Char) : Option (List Char) :=
  (grouped? Char.isDigit token).filter fun digits =>
    digits.head? ≠ some '0' || token.length = 1

def inRange (i : Int) : Option Int :=
  if Int64.minValue.toInt ≤ i ∧ i ≤ Int64.maxValue.toInt then some i else none

def based? (base : Nat) (token : List Char) : Option Int := do
  let digits ← grouped? (fun c => (Hex.value? c).any (· < base)) token
  let n ← digits.foldlM (fun n c => (Hex.value? c).map (base * n + ·)) 0
  inRange n

def integer? : List Char → Option Int
  | '0' :: 'x' :: rest => based? 16 rest
  | '0' :: 'o' :: rest => based? 8 rest
  | '0' :: 'b' :: rest => based? 2 rest
  | token => do
    let (negative, unsigned) := Numeral.sign token
    let digits ← whole? unsigned
    let magnitude := Nat.ofDigitChars 10 digits 0
    inRange (if negative then -magnitude else magnitude)

def isDigitOrBar (c : Char) : Bool :=
  c.isDigit || c = '_'

/-- The digits of a fraction, with none where there is no point. -/
def fraction? : List Char → Option (List Char × List Char)
  | '.' :: rest =>
    (grouped? Char.isDigit (rest.takeWhile isDigitOrBar)).map fun digits =>
      (digits, rest.dropWhile isDigitOrBar)
  | token => some ([], token)

/-- An exponent, which ends the number; zero where there is none. -/
def exponent? : List Char → Option Int
  | [] => some 0
  | c :: rest =>
    if c = 'e' || c = 'E' then do
      let (negative, unsigned) := Numeral.sign rest
      let digits ← grouped? Char.isDigit unsigned
      let magnitude := Nat.ofDigitChars 10 digits 0
      some (if negative then -magnitude else magnitude)
    else none

/-- A number with a fraction or an exponent. One that is too large is none, while one that is too
small is taken for minus infinity. -/
def decimal? (token : List Char) : Option Float := do
  let (negative, unsigned) := Numeral.sign token
  let whole ← whole? (unsigned.takeWhile isDigitOrBar)
  let tail := unsigned.dropWhile isDigitOrBar
  let (frac, rest) ← fraction? tail
  let power ← exponent? rest
  let significand := Nat.ofDigitChars 10 (whole ++ frac) 0
  let x := Decimal.toFloat ⟨negative, significand, power - frac.length⟩
  if tail.isEmpty || (x.isInf && !negative) then none else some x

/-- What is no finite number, with an optional sign. -/
def special? (token : List Char) : Option Float :=
  match Numeral.sign token with
  | (negative, ['i', 'n', 'f']) => some (if negative then -1 / 0 else 1 / 0)
  | (_, ['n', 'a', 'n']) => some (0 / 0)
  | _ => none

/-! ## Moments -/

def twoDigits? : List Char → Option (Nat × List Char)
  | a :: b :: rest =>
    if a.isDigit && b.isDigit then some (Nat.ofDigitChars 10 [a, b] 0, rest) else none
  | _ => none

/-- Two digits at the front that write a number between bounds. -/
def twoDigitsIn? (low high : Nat) (token : List Char) : Option (Nat × List Char) :=
  (twoDigits? token).filter fun (n, _) => low ≤ n && n ≤ high

def skip? (c : Char) : List Char → Option (List Char)
  | d :: rest => if d = c then some rest else none
  | [] => none

def isLeapYear (year : Nat) : Bool :=
  year % 4 = 0 && (year % 100 ≠ 0 || year % 400 = 0)

def daysInMonth (year month : Nat) : Nat :=
  match month with
  | 2 => if isLeapYear year then 29 else 28
  | 4 | 6 | 9 | 11 => 30
  | _ => 31

def afterDate? (token : List Char) : Option (List Char) := do
  let (century, rest) ← twoDigits? token
  let (ofCentury, rest) ← twoDigits? rest
  let (month, rest) ← twoDigitsIn? 1 12 (← skip? '-' rest)
  let (_, rest) ← twoDigitsIn? 1 (daysInMonth (100 * century + ofCentury) month) (← skip? '-' rest)
  some rest

/-- What follows a time with seconds, which may have a fraction. -/
def afterTime? (token : List Char) : Option (List Char) := do
  let (_, rest) ← twoDigitsIn? 0 23 token
  let (_, rest) ← twoDigitsIn? 0 59 (← skip? ':' rest)
  let (_, rest) ← twoDigitsIn? 0 60 (← skip? ':' rest)
  match rest with
  | '.' :: rest => if (Numeral.digits rest).1.isEmpty then none else some (Numeral.digits rest).2
  | _ => some rest

/-- Whether nothing or an offset from universal time is left. -/
def endsWithOffset : List Char → Bool
  | [] => true
  | ['Z'] | ['z'] => true
  | c :: rest =>
    (c = '+' || c = '-') &&
      ((do
        let (_, rest) ← twoDigitsIn? 0 23 rest
        let (_, rest) ← twoDigitsIn? 0 59 (← skip? ':' rest)
        some rest) : Option (List Char)) = some []

/-- Whether a token is a time that may have an offset, as after a date. -/
def isTimeOfDay (token : List Char) : Bool :=
  (afterTime? token).any endsWithOffset

def isDate (token : List Char) : Bool :=
  afterDate? token = some []

def isMoment (token : List Char) : Bool :=
  match afterDate? token with
  | some [] => true
  | some (c :: rest) => (c = 'T' || c = 't') && isTimeOfDay rest
  | none => afterTime? token = some []

/-! ## Tokens -/

def isTokenChar (c : Char) : Bool :=
  c.isAlphanum || c = '_' || c = '+' || c = '-' || c = '.' || c = ':'

def ofToken? (token : List Char) : Option Scalar :=
  if token = ['t', 'r', 'u', 'e'] then some (.boolean true)
  else if token = ['f', 'a', 'l', 's', 'e'] then some (.boolean false)
  else if isMoment token then some .moment
  else
    (special? token).map .float
      <|> (decimal? token).map .float
      <|> (integer? token).map .integer

/-- A scalar at the front of a text, and what follows it. A blank may stand between a date and its
time. -/
def read? (text : List Char) : Option (Scalar × List Char) :=
  let token := text.takeWhile isTokenChar
  let rest := text.dropWhile isTokenChar
  match isDate token, rest with
  | true, ' ' :: later =>
    if isTimeOfDay (later.takeWhile isTokenChar) then
      some (.moment, later.dropWhile isTokenChar)
    else some (.moment, rest)
  | _, _ => (ofToken? token).map fun scalar => (scalar, rest)

end Scalar

end Toml

end PrinterShadow
