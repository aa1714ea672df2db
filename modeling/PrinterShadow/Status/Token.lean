import PrinterShadow.Decimal.Exact
import PrinterShadow.Decimal.Numeral

/-!
Tokens of a status line. A line is split into fields at its spaces; a field with a colon after at
least one character is a token, whose key ends at the first colon and whose value runs to the end of
the field. So `T:` is not found inside `T0:`, nor `X:` inside `MX:`.
-/

namespace PrinterShadow

namespace Status

structure Token where
  key : String
  value : String
  deriving DecidableEq, Repr

namespace Token

/-- The token that a field is. A field without a colon, or with nothing before its first one, is
none. -/
def ofField? (field : List Char) : Option Token :=
  match field.span (· ≠ ':') with
  | (key, ':' :: value) => if key = [] then none else some ⟨.ofList key, .ofList value⟩
  | _ => none

end Token

/-- Whether a character ends a line. -/
def isLineEnd (c : Char) : Bool :=
  c = '\x0d' || c = '\n'

/-- The line without the run of line ends that it closes with. -/
def trimLineEnd (line : List Char) : List Char :=
  (line.reverse.dropWhile isLineEnd).reverse

/-- The tokens of a line, in their order. -/
def tokens (line : String) : List Token :=
  ((trimLineEnd line.toList).splitOn ' ').filterMap Token.ofField?

/-- The value of the first token with a key. -/
def value? (key : String) (ts : List Token) : Option String :=
  (ts.find? fun t => t.key = key).map Token.value

/-- Whether a key occurs. -/
def hasKey (key : String) (ts : List Token) : Bool :=
  (value? key ts).isSome

/-- The number at the front of the value of a key. -/
def number? (key : String) (ts : List Token) : Option Float :=
  (value? key ts).bind fun value => leadingNumber? value.toList

/-- The whole part of the number of a key. -/
def integer? (key : String) (ts : List Token) : Option Int32 :=
  (number? key ts).map wholePart

end Status

end PrinterShadow
