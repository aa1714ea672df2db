import PrinterShadow.Decimal.Numeral
import PrinterShadow.Json.Value
import PrinterShadow.Text.Hex

/-!
Reading JSON text. Each reader takes the text left and gives back what it read and what follows.
`Json.parse?` accepts one document with blanks around it and nothing else.
-/

namespace PrinterShadow.Json.Reader

/-- The characters that may stand between tokens. -/
def isBlank (c : Char) : Bool :=
  c = ' ' || c = '\t' || c = '\n' || c = '\x0d'

def skipBlanks (text : List Char) : List Char :=
  text.dropWhile isBlank

def escaped? : Char → Option Char
  | '"' => some '"'
  | '\\' => some '\\'
  | '/' => some '/'
  | 'b' => some '\x08'
  | 'f' => some '\x0c'
  | 'n' => some '\n'
  | 'r' => some '\x0d'
  | 't' => some '\t'
  | _ => none

/-- The code units up to the closing quote. A character is one unit here, whatever its size; an
escape with four digits may be half a surrogate pair. -/
def units? : List Char → Option (List Nat × List Char)
  | '"' :: rest => some ([], rest)
  | '\\' :: 'u' :: a :: b :: c :: d :: rest => do
    let unit ← Hex.number? [a, b, c, d]
    let (units, rest) ← units? rest
    some (unit :: units, rest)
  | '\\' :: c :: rest => do
    let c ← escaped? c
    let (units, rest) ← units? rest
    some (c.toNat :: units, rest)
  | c :: rest =>
    if c.toNat < 0x20 then none
    else do
      let (units, rest) ← units? rest
      some (c.toNat :: units, rest)
  | [] => none

def isLeading (unit : Nat) : Bool :=
  0xD800 ≤ unit && unit < 0xDC00

def isTrailing (unit : Nat) : Bool :=
  0xDC00 ≤ unit && unit < 0xE000

/-- The text of code units. Surrogates have to stand in pairs. -/
def textOfUnits? : List Nat → Option (List Char)
  | [] => some []
  | [unit] => if isLeading unit || isTrailing unit then none else some [Char.ofNat unit]
  | unit :: next :: rest =>
    if isLeading unit then
      if isTrailing next then
        let code := 0x10000 + (unit - 0xD800) * 0x400 + (next - 0xDC00)
        (textOfUnits? rest).map (Char.ofNat code :: ·)
      else none
    else if isTrailing unit then none
    else (textOfUnits? (next :: rest)).map (Char.ofNat unit :: ·)

/-- The rest of a string after its opening quote. -/
def string? (text : List Char) : Option (Option String × List Char) :=
  (units? text).map fun (units, rest) => ((textOfUnits? units).map String.ofList, rest)

/-- Digits of a whole part: `0`, or a run that does not start with it. -/
def whole? (text : List Char) : Option (List Char × List Char) :=
  match Numeral.digits text with
  | ([], _) => none
  | ('0' :: _ :: _, _) => none
  | parts => some parts

/-- A fraction with at least one digit, or none at all. -/
def fraction? : List Char → Option (List Char × List Char)
  | '.' :: rest =>
    match Numeral.digits rest with
    | ([], _) => none
    | parts => some parts
  | text => some ([], text)

/-- An exponent with at least one digit, or none at all. -/
def exponent? : List Char → Option (Option Int × List Char)
  | [] => some (none, [])
  | c :: rest =>
    if c = 'e' || c = 'E' then
      match Numeral.exponent (c :: rest) with
      | (power, after) => if after = c :: rest then none else some (some power, after)
    else some (none, c :: rest)

def number? (text : List Char) : Option (Number × List Char) := do
  let (negative, unsigned) := match text with
    | '-' :: rest => (true, rest)
    | _ => (false, text)
  let (whole, rest) ← whole? unsigned
  let (frac, rest) ← fraction? rest
  let (power, rest) ← exponent? rest
  let significand := Nat.ofDigitChars 10 (whole ++ frac) 0
  let value := ⟨negative, significand, power.getD 0 - frac.length⟩
  some (⟨value, frac.isEmpty && power.isNone⟩, rest)

mutual

/-- One document at the front of the text. `fuel` bounds the nesting and the number of items; twice
the length of the text is enough, since of two nested calls at least one consumes a character. -/
def value? : Nat → List Char → Option (Json × List Char)
  | 0, _ => none
  | fuel + 1, text =>
    match skipBlanks text with
    | 'n' :: 'u' :: 'l' :: 'l' :: rest => some (.null, rest)
    | 't' :: 'r' :: 'u' :: 'e' :: rest => some (.bool true, rest)
    | 'f' :: 'a' :: 'l' :: 's' :: 'e' :: rest => some (.bool false, rest)
    | '"' :: rest => (string? rest).map fun (text, rest) => (.string text, rest)
    | '[' :: rest =>
      match skipBlanks rest with
      | ']' :: rest => some (.array [], rest)
      | rest => (items? fuel rest).map fun (items, rest) => (.array items, rest)
    | '\x7b' :: rest =>
      match skipBlanks rest with
      | '\x7d' :: rest => some (.object [], rest)
      | rest => (members? fuel rest).map fun (members, rest) => (.object members, rest)
    | text => (number? text).map fun (n, rest) => (.number n, rest)

def items? : Nat → List Char → Option (List Json × List Char)
  | 0, _ => none
  | fuel + 1, text => do
    let (item, rest) ← value? fuel text
    match skipBlanks rest with
    | ',' :: rest =>
      let (items, rest) ← items? fuel rest
      some (item :: items, rest)
    | ']' :: rest => some ([item], rest)
    | _ => none

def members? : Nat → List Char → Option (List (Option String × Json) × List Char)
  | 0, _ => none
  | fuel + 1, text =>
    match skipBlanks text with
    | '"' :: rest => do
      let (name, rest) ← string? rest
      match skipBlanks rest with
      | ':' :: rest =>
        let (item, rest) ← value? fuel rest
        match skipBlanks rest with
        | ',' :: rest =>
          let (members, rest) ← members? fuel rest
          some ((name, item) :: members, rest)
        | '\x7d' :: rest => some ([(name, item)], rest)
        | _ => none
      | _ => none
    | _ => none

end

end PrinterShadow.Json.Reader

namespace PrinterShadow

def Json.parse? (text : String) : Option Json :=
  match Json.Reader.value? (2 * text.toList.length + 1) text.toList with
  | some (value, rest) => if (Json.Reader.skipBlanks rest).isEmpty then some value else none
  | none => none

end PrinterShadow
