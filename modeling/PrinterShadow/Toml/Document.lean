import PrinterShadow.Toml.Text
import PrinterShadow.Toml.Tree

/-!
Reading a TOML document. Each reader takes the text left and gives back what it read and what
follows. Arrays and inline tables nest less than 80 deep, and keys have less than 80 parts.
-/

namespace PrinterShadow

namespace Toml

/-- How deep arrays and inline tables nest, and how many parts a key has, at most. -/
def maxDepth : Nat := 79

def skipBlanks (text : List Char) : List Char :=
  text.dropWhile isBlank

def skipComment : List Char → List Char
  | '#' :: rest => rest.dropWhile isPlain
  | text => text

/-- What follows the end of a statement: blanks, a comment, and a line end or the end of the
text. -/
def afterStatement? (text : List Char) : Option (List Char) :=
  match skipComment (skipBlanks text) with
  | [] => some []
  | text => afterLineEnd? text

/-- What follows blanks, comments and line ends, as they may stand between the items of an array. -/
def skipLines : Nat → List Char → List Char
  | 0, text => text
  | fuel + 1, text =>
    match skipComment (skipBlanks text) with
    | '\n' :: rest => skipLines fuel rest
    | '\x0d' :: '\n' :: rest => skipLines fuel rest
    | text => text

/-! ## Keys -/

def isKeyChar (c : Char) : Bool :=
  c.isAlphanum || c = '_' || c = '-'

def keyPart? (text : List Char) : Option (String × List Char) :=
  match text.takeWhile isKeyChar with
  | [] => (Text.single? text).map fun (part, rest) => (String.ofList part, rest)
  | part => some (String.ofList part, text.dropWhile isKeyChar)

/-- A key of at most so many parts, with blanks around each. -/
def path? : Nat → List Char → Option (Path × List Char)
  | 0, _ => none
  | parts + 1, text => do
    let (part, rest) ← keyPart? (skipBlanks text)
    match skipBlanks rest with
    | '.' :: rest =>
      let (path, rest) ← path? parts rest
      some ({ path with tables := part :: path.tables }, rest)
    | rest => some (⟨[], part⟩, rest)

/-! ## Values -/

mutual

/-- A value at the front of the text. `depth` bounds how deep arrays and inline tables may nest;
`fuel` bounds the recursion, and twice the length of the text is enough. -/
def value? : Nat → Nat → List Char → Option (Item × List Char)
  | 0, _, _ => none
  | fuel + 1, depth, text =>
    match depth, text with
    | 0, '[' :: _ => none
    | 0, '\x7b' :: _ => none
    | depth + 1, '[' :: rest =>
      match skipLines rest.length rest with
      | ']' :: rest => some (.array [], rest)
      | rest => (items? fuel depth rest).map fun (items, rest) => (.array items, rest)
    | depth + 1, '\x7b' :: rest =>
      match skipBlanks rest with
      | '\x7d' :: rest => some (.table .inline [], rest)
      | rest => do
        let (assignments, rest) ← assignments? fuel depth rest
        let entries ← Entries.assign [] assignments
        some (.table .inline entries, rest)
    | _, '"' :: _ | _, '\'' :: _ =>
      (Text.read? text).map fun (value, rest) => (.text (String.ofList value), rest)
    | _, _ => (Scalar.read? text).map fun (value, rest) => (.scalar value, rest)

/-- The items of an array up to its closing bracket. A comma may stand after the last. -/
def items? : Nat → Nat → List Char → Option (List Item × List Char)
  | 0, _, _ => none
  | fuel + 1, depth, text => do
    let (item, rest) ← value? fuel depth (skipLines text.length text)
    match skipLines rest.length rest with
    | ']' :: rest => some ([item], rest)
    | ',' :: rest =>
      match skipLines rest.length rest with
      | ']' :: rest => some ([item], rest)
      | rest => do
        let (items, rest) ← items? fuel depth rest
        some (item :: items, rest)
    | _ => none

/-- The assignments of an inline table up to its closing brace. -/
def assignments? : Nat → Nat → List Char → Option (List Assignment × List Char)
  | 0, _, _ => none
  | fuel + 1, depth, text => do
    let (path, rest) ← path? maxDepth text
    match rest with
    | '=' :: rest =>
      let (item, rest) ← value? fuel depth (skipBlanks rest)
      match skipBlanks rest with
      | '\x7d' :: rest => some ([⟨path, item⟩], rest)
      | ',' :: rest => do
        let (assignments, rest) ← assignments? fuel depth rest
        some (⟨path, item⟩ :: assignments, rest)
      | _ => none
    | _ => none

end

/-! ## Statements -/

def assignment? (text : List Char) : Option (Assignment × List Char) := do
  let (path, rest) ← path? maxDepth text
  match rest with
  | '=' :: rest =>
    let (item, rest) ← value? (2 * rest.length + 1) maxDepth (skipBlanks rest)
    let rest ← afterStatement? rest
    some (⟨path, item⟩, rest)
  | _ => none

/-- A header after its first bracket: its path, whether it adds an element, and what follows its
line. -/
def header? : List Char → Option ((Path × Bool) × List Char)
  | '[' :: text => do
    let (path, rest) ← path? maxDepth text
    match rest with
    | ']' :: ']' :: rest => (afterStatement? rest).map fun rest => ((path, true), rest)
    | _ => none
  | text => do
    let (path, rest) ← path? maxDepth text
    match rest with
    | ']' :: rest => (afterStatement? rest).map fun rest => ((path, false), rest)
    | _ => none

/-- A document with one more assignment before all else. -/
def Document.consAssignment (a : Assignment) (d : Document) : Document :=
  { d with assignments := a :: d.assignments }

/-- A document with a header before all else, whose section takes the assignments that stand before
the next header. -/
def Document.consHeader (path : Path) (isElement : Bool) (d : Document) : Document :=
  ⟨[], ⟨path, isElement, d.assignments⟩ :: d.sections⟩

/-- The document that a text is; `fuel` bounds the number of its lines. -/
def document? : Nat → List Char → Option Document
  | 0, _ => none
  | fuel + 1, text =>
    match skipBlanks text with
    | [] => some ⟨[], []⟩
    | '\n' :: rest => document? fuel rest
    | '\x0d' :: '\n' :: rest => document? fuel rest
    | '#' :: rest => (afterStatement? ('#' :: rest)).bind (document? fuel)
    | '[' :: rest => do
      let ((path, isElement), rest) ← header? rest
      (document? fuel rest).map (Document.consHeader path isElement)
    | text => do
      let (a, rest) ← assignment? text
      (document? fuel rest).map (Document.consAssignment a)

def skipMark : List Char → List Char
  | '\uFEFF' :: rest => rest
  | text => text

/-- The entries of the tree that a text describes. -/
def parse? (text : String) : Option Entries :=
  let text := skipMark text.toList
  (document? (text.length + 1) text).bind Document.entries?

end Toml

end PrinterShadow
