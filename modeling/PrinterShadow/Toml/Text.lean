import PrinterShadow.Text.Hex

/-!
Strings in TOML. There are four forms: basic and literal ones, each on one line or on several. A
basic string has escapes; a literal one has none and so cannot hold everything. Writing takes the
first form that needs no escapes, and a basic one with escapes where there is none.
-/

namespace PrinterShadow

namespace Toml

/-- A character that may stand in a string on one line as it is: a tab or no control character. -/
def isPlain (c : Char) : Bool :=
  c = '\t' || (0x20 ≤ c.toNat && c.toNat ≠ 0x7F)

def isBlank (c : Char) : Bool :=
  c = ' ' || c = '\t'

def afterLineEnd? : List Char → Option (List Char)
  | '\n' :: rest => some rest
  | '\x0d' :: '\n' :: rest => some rest
  | _ => none

namespace Text

/-! ## Reading -/

def escaped? : Char → Option Char
  | 'b' => some '\x08'
  | 't' => some '\t'
  | 'n' => some '\n'
  | 'f' => some '\x0c'
  | 'r' => some '\x0d'
  | '"' => some '"'
  | '\\' => some '\\'
  | _ => none

/-- A character before what is read next. -/
def prepend (c : Char) (read : Option (List Char × List Char)) : Option (List Char × List Char) :=
  read.map fun (text, rest) => (c :: text, rest)

/-- A basic string after its opening quote, and what follows it. -/
def basic? : List Char → Option (List Char × List Char)
  | [] => none
  | '"' :: rest => some ([], rest)
  | '\\' :: 'u' :: a :: b :: c :: d :: rest =>
    (Hex.char? [a, b, c, d]).bind fun x => prepend x (basic? rest)
  | '\\' :: 'U' :: a :: b :: c :: d :: e :: f :: g :: h :: rest =>
    (Hex.char? [a, b, c, d, e, f, g, h]).bind fun x => prepend x (basic? rest)
  | '\\' :: c :: rest => (escaped? c).bind fun x => prepend x (basic? rest)
  | c :: rest => if isPlain c then prepend c (basic? rest) else none

/-- A literal string after its opening quote, and what follows it. -/
def literal? : List Char → Option (List Char × List Char)
  | [] => none
  | '\'' :: rest => some ([], rest)
  | c :: rest => if isPlain c then prepend c (literal? rest) else none

/-- What three quotes end: up to two more quotes directly after them belong to the text. -/
def closing (quote : Char) : List Char → List Char × List Char
  | c :: d :: rest =>
    if c = quote then
      if d = quote then ([quote, quote], rest) else ([quote], d :: rest)
    else ([], c :: d :: rest)
  | [c] => if c = quote then ([quote], []) else ([], [c])
  | [] => ([], [])

def endsLine (text : List Char) : Bool :=
  (afterLineEnd? (text.dropWhile isBlank)).isSome

/-- A basic string on several lines after its opening quotes, and what follows it. A backslash at
the end of a line skips what is blank up to the next character; `skipping` says that this is going
on. -/
def multiBasic? : Bool → List Char → Option (List Char × List Char)
  | _, [] => none
  | _, '"' :: '"' :: '"' :: rest => some (closing '"' rest)
  | _, '\\' :: rest =>
    if endsLine rest then multiBasic? true rest
    else
      match rest with
      | 'u' :: a :: b :: c :: d :: rest =>
        (Hex.char? [a, b, c, d]).bind fun x => prepend x (multiBasic? false rest)
      | 'U' :: a :: b :: c :: d :: e :: f :: g :: h :: rest =>
        (Hex.char? [a, b, c, d, e, f, g, h]).bind fun x => prepend x (multiBasic? false rest)
      | c :: rest => (escaped? c).bind fun x => prepend x (multiBasic? false rest)
      | [] => none
  | skipping, '\x0d' :: '\n' :: rest =>
    if skipping then multiBasic? true rest else prepend '\n' (multiBasic? false rest)
  | skipping, c :: rest =>
    if skipping && (isBlank c || c = '\n') then multiBasic? true rest
    else if isPlain c || c = '\n' then prepend c (multiBasic? false rest)
    else none

/-- A literal string on several lines after its opening quotes, and what follows it. -/
def multiLiteral? : List Char → Option (List Char × List Char)
  | [] => none
  | '\'' :: '\'' :: '\'' :: rest => some (closing '\'' rest)
  | '\x0d' :: '\n' :: rest => prepend '\n' (multiLiteral? rest)
  | c :: rest => if isPlain c || c = '\n' then prepend c (multiLiteral? rest) else none

def dropLineEnd (text : List Char) : List Char :=
  (afterLineEnd? text).getD text

def single? : List Char → Option (List Char × List Char)
  | '"' :: rest => basic? rest
  | '\'' :: rest => literal? rest
  | _ => none

/-- A string of any form, and what follows it. -/
def read? : List Char → Option (List Char × List Char)
  | '"' :: '"' :: '"' :: rest => multiBasic? false (dropLineEnd rest)
  | '\'' :: '\'' :: '\'' :: rest => multiLiteral? (dropLineEnd rest)
  | text => single? text

/-! ## Writing -/

/-- The length of the longest run of a character, given the length of the run so far. -/
def longestRun (c : Char) (run : Nat) : List Char → Nat
  | [] => run
  | d :: rest => if d = c then longestRun c (run + 1) rest else max run (longestRun c 0 rest)

/-- Whether only an escape can write a character. Tabs and line ends are left out, since forms
differ in them. -/
def needsEscape (c : Char) : Bool :=
  c ≠ '\t' && c ≠ '\n' && (c.toNat < 0x20 || c.toNat = 0x7F)

inductive Form where
  | basic | literal | multiBasic | multiLiteral
  deriving DecidableEq, Repr

/-- The first form that holds a text as it is; else a basic form with escapes. -/
def Form.choose (text : List Char) : Form :=
  let controls := text.any needsEscape
  let backslash := text.contains '\\'
  let lines := text.contains '\n'
  let double := longestRun '"' 0 text
  let quote := longestRun '\'' 0 text
  if !controls && !backslash && !lines && double = 0 then .basic
  else if !controls && !lines && quote = 0 then .literal
  else if !controls && !backslash && double ≤ 2 then .multiBasic
  else if !controls && quote ≤ 2 then .multiLiteral
  else if lines then .multiBasic
  else .basic

/-- The escape of a character that a basic form does not hold as it is. -/
def escape? (several : Bool) (c : Char) : Option (List Char) :=
  if c = '\x08' then some ['\\', 'b']
  else if c = '\t' then some ['\\', 't']
  else if c = '\n' then if several then none else some ['\\', 'n']
  else if c = '\x0c' then some ['\\', 'f']
  else if c = '\x0d' then some ['\\', 'r']
  else if c = '\\' then some ['\\', '\\']
  else if c.toNat < 0x20 ∨ c.toNat = 0x7F then some ('\\' :: 'u' :: Hex.fourDigits c.toNat)
  else none

/-- The body of a basic form. A quote is escaped where it would be one too many in a row: the third
on several lines, the first on one. `run` counts the quotes just before, up to the last escape or
other character. -/
def escapeAll (several : Bool) (run : Nat) : List Char → List Char
  | [] => []
  | c :: rest =>
    if c = '"' then
      if (if several then 2 else 0) ≤ run then '\\' :: '"' :: escapeAll several 0 rest
      else '"' :: escapeAll several (run + 1) rest
    else
      match escape? several c with
      | some escape => escape ++ escapeAll several 0 rest
      | none => c :: escapeAll several 0 rest

/-- A line end after the opening quotes where the text has one. -/
def opening (text : List Char) : List Char :=
  if text.contains '\n' then ['\n'] else []

def write (text : List Char) : List Char :=
  match Form.choose text with
  | .basic => '"' :: escapeAll false 0 text ++ ['"']
  | .literal => '\'' :: text ++ ['\'']
  | .multiBasic =>
    ['"', '"', '"'] ++ opening text ++ escapeAll true 0 text ++ ['"', '"', '"']
  | .multiLiteral =>
    ['\'', '\'', '\''] ++ opening text ++ text ++ ['\'', '\'', '\'']

end Text

end Toml

end PrinterShadow
