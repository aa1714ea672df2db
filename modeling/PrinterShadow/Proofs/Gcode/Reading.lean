import PrinterShadow.Gcode.Line
import PrinterShadow.Proofs.Decimal.Reading

/-!
Reading G-code text. A line is fields between blanks, each a letter and a number. The text of a line
that is written reads as the command that the line stands for.
-/

namespace PrinterShadow

theorem Fixed.blank_notMem_chars (v : Fixed) : ' ' ∉ v.chars := by
  cases v with
  | finite negative units places =>
    have hpointed : ' ' ∉ Decimal.pointed places units := fun h =>
      (Decimal.mem_pointed h).elim nofun nofun
    cases negative <;> simp [chars, Decimal.signed, hpointed]
  | infinite negative => cases negative <;> decide
  | notANumber => decide

namespace Gcode

/-- What follows a letter in the first field that starts with it. -/
def field? (letter : Char) (fields : List (List Char)) : Option (List Char) :=
  (fields.find? fun field => field.head? = some letter).map List.tail

def leadingNatural? (text : List Char) : Option Nat :=
  let run := (Numeral.digits text).1
  if run = [] then none else some (Nat.ofDigitChars 10 run 0)

def commandOf (fields : List (List Char)) : Command :=
  let number (letter : Char) := (field? letter fields).bind leadingNumber?
  let natural (letter : Char) := (field? letter fields).bind leadingNatural?
  { lineNumber := (natural 'N').map Nat.toUInt32
    g := (natural 'G').map Nat.toUInt16
    m := (natural 'M').map Nat.toUInt16
    tool := (natural 'T').map fun n => Int32.ofNat n
    words :=
      { xyz := .ofFn fun a => number a.letter
        e := number 'E'
        feed := number 'F'
        s := number 'S' } }

/-- The command that a text is to the firmware. -/
def read (text : String) : Command :=
  commandOf (text.toList.splitOn ' ')

namespace Line

/-- Whether no word stands for more than a number of the command. -/
def Plain (line : Line) : Prop :=
  ∀ w ∈ line.words, w.letter ∉ [' ', 'N', 'M', 'T']

instance (line : Line) : Decidable line.Plain := inferInstanceAs (Decidable (∀ _ ∈ _, _))

def fields (line : Line) : List (List Char) :=
  ('G' :: Nat.toDigits 10 line.g.toNat) :: line.words.map fun w => w.letter :: w.value.chars

theorem splitOn_words {words : List Word} (hwords : ∀ w ∈ words, w.letter ≠ ' ')
    {head : List Char} (hhead : ' ' ∉ head) :
    (head ++ words.flatMap fun w => ' ' :: w.letter :: w.value.chars).splitOn ' ' =
      head :: words.map fun w => w.letter :: w.value.chars := by
  induction words generalizing head with
  | nil => simpa using List.splitOn_eq_singleton hhead
  | cons w words ih =>
    have hw : ' ' ∉ w.letter :: w.value.chars :=
      List.not_mem_cons_of_ne_of_not_mem (hwords w List.mem_cons_self).symm
        w.value.blank_notMem_chars
    rw [List.flatMap_cons, List.cons_append, List.splitOn_append_cons_self_of_not_mem hhead,
      ih (fun v hv => hwords v (List.mem_cons_of_mem w hv)) hw, List.map_cons]

theorem splitOn_chars {line : Line} (h : line.Plain) : line.chars.splitOn ' ' = line.fields := by
  have hhead : ' ' ∉ 'G' :: Nat.toDigits 10 line.g.toNat :=
    List.not_mem_cons_of_ne_of_not_mem (by decide) fun hmem =>
      nomatch Numeral.isDigit_of_mem_toDigits hmem
  refine splitOn_words (fun w hw hblank => h w hw ?_) hhead
  rw [hblank]
  decide

theorem field?_fields (line : Line) {letter : Char} (h : letter ≠ 'G') :
    field? letter line.fields =
      (line.words.find? fun w => w.letter = letter).map fun w => w.value.chars := by
  simp [field?, fields, h.symm, Function.comp_def]

theorem number_fields (line : Line) {letter : Char} (h : letter ≠ 'G') :
    (field? letter line.fields).bind leadingNumber? = line.number? letter := by
  rw [field?_fields line h, number?]
  cases line.words.find? fun w => w.letter = letter with
  | none => rfl
  | some w => exact Fixed.leadingNumber?_chars w.value

theorem field?_fields_of_plain {line : Line} (hplain : line.Plain) {letter : Char}
    (h : letter ∈ ['N', 'M', 'T']) : field? letter line.fields = none := by
  rw [field?_fields line (by rintro rfl; revert h; decide), Option.map_eq_none_iff,
    List.find?_eq_none]
  intro w hw heq
  rw [decide_eq_true_eq] at heq
  exact hplain w hw (heq ▸ List.mem_cons_of_mem ' ' h)

theorem leadingNatural?_toDigits (n : Nat) : leadingNatural? (Nat.toDigits 10 n) = some n := by
  rw [leadingNatural?, Numeral.digits_of_all fun _ => Numeral.isDigit_of_mem_toDigits]
  simp [Nat.toDigits_ne_nil, Nat.ofDigitChars_ten_toDigits]

/-- The text of a line reads as the command that the line stands for. -/
theorem read_render {line : Line} (h : line.Plain) : read line.render = line.command := by
  rw [read, render, String.toList_ofList, splitOn_chars h, commandOf, command]
  have hg : (field? 'G' line.fields).bind leadingNatural? = some line.g.toNat :=
    leadingNatural?_toDigits line.g.toNat
  have hletter (a : Cartesian) : a.letter ≠ 'G' := by cases a <;> decide
  simp only [field?_fields_of_plain h (show 'N' ∈ ['N', 'M', 'T'] by decide),
    field?_fields_of_plain h (show 'M' ∈ ['N', 'M', 'T'] by decide),
    field?_fields_of_plain h (show 'T' ∈ ['N', 'M', 'T'] by decide), hg,
    number_fields line (hletter _), number_fields line (show 'E' ≠ 'G' by decide),
    number_fields line (show 'F' ≠ 'G' by decide), number_fields line (show 'S' ≠ 'G' by decide)]
  simp

end Line

end Gcode

end PrinterShadow
