import PrinterShadow.Toml.Scalar

/-!
The tree that a TOML document builds, statement by statement. How a table came about decides what
may be added to it: a table that a header only passed through may still get its own header, and one
that dotted keys made only grows by dotted keys.
-/

namespace PrinterShadow

namespace Toml

/-- How a table came about. -/
inductive Origin where
  /-- By its own header, or as an element of an array of tables. -/
  | header
  /-- Because a header below it passed through. -/
  | passed
  /-- Because a dotted key passed through. -/
  | dotted
  /-- Written between braces. -/
  | inline
  deriving DecidableEq, Repr

inductive Item where
  | text (value : String)
  | scalar (value : Scalar)
  | array (items : List Item)
  | table (origin : Origin) (entries : List (String × Item))
  /-- An array of tables, the last of which is open; each is given by its entries. -/
  | tables (earlier : List (List (String × Item))) (last : List (String × Item))

abbrev Entries := List (String × Item)

namespace Entries

/-- The entries with the value of a key replaced, or added at the end where there is none. -/
def set (key : String) (item : Item) : Entries → Entries
  | [] => [(key, item)]
  | (k, old) :: rest => if k = key then (k, item) :: rest else (k, old) :: set key item rest

/-- Adds a key that is new. -/
def add (key : String) (item : Item) (entries : Entries) : Option Entries :=
  if (entries.lookup key).isSome then none else some (entries.set key item)

/-- Adds a value under a dotted key. The tables on the way are those that no header has made; the
last of them has to be made by dotted keys. -/
def addDotted : List String → String → Item → Entries → Option Entries
  | [], key, item, entries => entries.add key item
  | k :: path, key, item, entries =>
    match entries.lookup k with
    | none => do
      let inner ← addDotted path key item []
      some (entries.set k (.table .dotted inner))
    | some (.table .dotted inner) => do
      let inner ← addDotted path key item inner
      some (entries.set k (.table .dotted inner))
    | some (.table .passed inner) =>
      if path.isEmpty then none
      else do
        let inner ← addDotted path key item inner
        some (entries.set k (.table .passed inner))
    | some (.tables earlier last) =>
      if path.isEmpty then none
      else do
        let last ← addDotted path key item last
        some (entries.set k (.tables earlier last))
    | some _ => none

/-- Changes what stands at the end of a header's path. Tables on the way are made where they are
lacking, and of an array of tables the last element is meant. -/
def update (change : Option Item → Option Item) : List String → String → Entries → Option Entries
  | [], key, entries => do
    let item ← change (entries.lookup key)
    some (entries.set key item)
  | k :: path, key, entries =>
    match entries.lookup k with
    | none => do
      let inner ← update change path key []
      some (entries.set k (.table .passed inner))
    | some (.table .inline _) => none
    | some (.table origin inner) => do
      let inner ← update change path key inner
      some (entries.set k (.table origin inner))
    | some (.tables earlier last) => do
      let last ← update change path key last
      some (entries.set k (.tables earlier last))
    | some _ => none

end Entries

/-- A dotted key: the tables on its way, and its last part. -/
structure Path where
  tables : List String
  key : String
  deriving DecidableEq, Repr

/-- One statement that gives a key its value. -/
structure Assignment where
  path : Path
  item : Item

def Entries.assign (entries : Entries) (assignments : List Assignment) : Option Entries :=
  assignments.foldlM (fun entries a => entries.addDotted a.path.tables a.path.key a.item) entries

structure Section where
  path : Path
  /-- Whether the header adds an element to an array of tables. -/
  isElement : Bool
  assignments : List Assignment

/-- What stands at a header after its section. A table has one header at most, and none where dotted
keys have made it. -/
def Section.build (s : Section) (old : Option Item) : Option Item :=
  if s.isElement then do
    let new ← Entries.assign [] s.assignments
    match old with
    | none => some (.tables [] new)
    | some (.tables earlier last) => some (.tables (earlier ++ [last]) new)
    | some _ => none
  else
    match old with
    | none => (Entries.assign [] s.assignments).map (.table .header)
    | some (.table .passed entries) =>
      (Entries.assign entries s.assignments).map (.table .header)
    | some _ => none

/-- A document: the assignments before the first header, and the sections. -/
structure Document where
  assignments : List Assignment
  sections : List Section

def Document.entries? (d : Document) : Option Entries := do
  let entries ← Entries.assign [] d.assignments
  d.sections.foldlM (fun entries s => entries.update s.build s.path.tables s.path.key) entries

end Toml

end PrinterShadow
