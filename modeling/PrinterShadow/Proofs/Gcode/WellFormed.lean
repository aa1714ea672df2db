import PrinterShadow.Proofs.Double.Value
import PrinterShadow.Proofs.Gcode.Reading
import PrinterShadow.Proofs.Toml.Scalar

/-!
The form of the lines that are written for the printer, as a test on their text. A line is well
formed exactly where its words have finite values, since what is no finite number is written by its
name.
-/

namespace PrinterShadow

namespace Gcode

/-! ## The form of a text -/

def dropMinus : List Char → List Char
  | '-' :: text => text
  | text => text

/-- Digits with at most one point among them. -/
def isUnsigned (text : List Char) : Bool :=
  text.any Char.isDigit && text.all (fun ch => ch.isDigit || ch = '.') && text.count '.' ≤ 1

/-- An optional minus sign, and digits with at most one point among them. -/
def isNumber (text : List Char) : Bool :=
  isUnsigned (dropMinus text)

/-- An optional minus sign, digits, and a point with so many digits where these are not none. -/
def hasPlaces (places : Nat) (text : List Char) : Bool :=
  let (whole, tail) := Numeral.digits (dropMinus text)
  !whole.isEmpty &&
    match tail with
    | [] => places = 0
    | ch :: frac => ch = '.' && 0 < places && frac.length = places && frac.all Char.isDigit

/-- A number without a sign that is not zero. -/
def isPositive (text : List Char) : Bool :=
  isUnsigned text && text.any fun ch => ch.isDigit && ch ≠ '0'

/-- A letter and a number. -/
def isWord : List Char → Bool
  | letter :: number => letter.isAlpha && isNumber number
  | [] => false

/-- Whether a line is `G90`, `G91`, or `G1` or `G92` with words. -/
def isWellFormed (line : String) : Bool :=
  match line.toList.splitOn ' ' with
  | [] => false
  | [head] => head = ['G', '9', '0'] || head = ['G', '9', '1']
  | head :: words => (head = ['G', '1'] || head = ['G', '9', '2']) && words.all isWord

/-- Whether the feed word of a line has a positive number. -/
def hasPositiveFeed (line : String) : Bool :=
  (field? 'F' (line.toList.splitOn ' ')).any isPositive

/-- Whether a line moves one axis, with two places, at a whole feed rate. -/
def isJog (axis : Axis) (line : String) : Bool :=
  match line.toList.splitOn ' ' with
  | [['G', '1'], letter :: value, 'F' :: feed] =>
    letter = axis.letter && hasPlaces 2 value && hasPlaces 0 feed
  | _ => false

end Gcode

/-! ## Written numbers -/

namespace Fixed

open Gcode
open Decimal (signed pointed lastDigits fractionChars)

def isFinite : Fixed → Bool
  | .finite _ _ _ => true
  | _ => false

theorem isFinite_ofFloat (places : Nat) (x : Float) : (ofFloat places x).isFinite = x.isFinite := by
  rw [Bool.eq_iff_iff, Exact.isFinite_iff, ofFloat]
  cases Exact.ofFloat x <;> simp [isFinite]

theorem dropMinus_signed (negative : Bool) {ch : Char} (hdigit : ch.isDigit) (rest : List Char) :
    dropMinus (signed negative (ch :: rest)) = ch :: rest := by
  cases negative with
  | true => rfl
  | false =>
    have hminus : ch ≠ '-' := by rintro rfl; nomatch hdigit
    simp [signed, dropMinus, hminus]

theorem dropMinus_signed_pointed (negative : Bool) (places n : Nat) :
    dropMinus (signed negative (pointed places n)) = pointed places n := by
  obtain ⟨ch, rest, hdigits, hdigit⟩ := Decimal.exists_toDigits (n / 10 ^ places)
  rw [Decimal.pointed_eq, hdigits]
  exact dropMinus_signed negative hdigit _

theorem count_point_of_digits {text : List Char} (h : ∀ c ∈ text, c.isDigit) :
    text.count '.' = 0 :=
  List.count_eq_zero.mpr fun hmem => nomatch h '.' hmem

theorem count_point_fractionChars {frac : List Char} (h : ∀ c ∈ frac, c.isDigit) :
    (fractionChars frac).count '.' ≤ 1 := by
  cases frac with
  | nil => exact Nat.zero_le 1
  | cons ch frac => rw [fractionChars, List.count_cons_self, count_point_of_digits h]

theorem isUnsigned_pointed (places n : Nat) : isUnsigned (pointed places n) = true := by
  obtain ⟨ch, rest, hdigits, hdigit⟩ := Decimal.exists_toDigits (n / 10 ^ places)
  have hany : (pointed places n).any Char.isDigit = true :=
    List.any_eq_true.mpr ⟨ch, by rw [Decimal.pointed_eq, hdigits]; simp, hdigit⟩
  have hall : (pointed places n).all (fun c => c.isDigit || c = '.') = true :=
    List.all_eq_true.mpr fun c hc => by simpa using Decimal.mem_pointed hc
  have hcount : (pointed places n).count '.' ≤ 1 := by
    rw [Decimal.pointed_eq, List.count_append,
      count_point_of_digits fun _ => Numeral.isDigit_of_mem_toDigits, Nat.zero_add]
    exact count_point_fractionChars fun _ => Decimal.isDigit_of_mem_lastDigits
  simp only [isUnsigned, hany, hall, hcount, decide_true, Bool.and_self]

/-- What is written is a number just where the value is finite. -/
theorem isNumber_chars (v : Fixed) : isNumber v.chars = v.isFinite := by
  cases v with
  | finite negative units places =>
    rw [isNumber, chars, dropMinus_signed_pointed, isUnsigned_pointed]
    rfl
  | infinite negative => cases negative <;> rfl
  | notANumber => rfl

theorem hasPlaces_signed_pointed (negative : Bool) (places n : Nat) :
    hasPlaces places (signed negative (pointed places n)) = true := by
  have hlength := Decimal.length_lastDigits places n
  have hdigits : ∀ c ∈ lastDigits places n, c.isDigit := fun _ => Decimal.isDigit_of_mem_lastDigits
  have hne : (Nat.toDigits 10 (n / 10 ^ places)).isEmpty = false :=
    List.isEmpty_eq_false_iff.mpr Nat.toDigits_ne_nil
  rw [hasPlaces, dropMinus_signed_pointed, Numeral.digits_pointed]
  dsimp only
  rw [hne, Bool.not_false, Bool.true_and]
  cases hfrac : lastDigits places n with
  | nil =>
    rw [hfrac] at hlength
    exact decide_eq_true hlength.symm
  | cons ch frac =>
    rw [hfrac] at hlength hdigits
    have hpos : 0 < places := hlength ▸ Nat.succ_pos _
    simpa [fractionChars, hpos, hlength] using hdigits

theorem hasPlaces_chars_ofFloat (places : Nat) (x : Float) :
    hasPlaces places (ofFloat places x).chars = x.isFinite := by
  rw [← isFinite_ofFloat places, ofFloat]
  cases Exact.ofFloat x with
  | finite negative m e => exact hasPlaces_signed_pointed negative places _
  | infinite negative => cases negative <;> rfl
  | notANumber => rfl

/-! ## Positive numbers -/

theorem roundDiv_pos_iff {num den : Nat} (hden : 0 < den) : 0 < roundDiv num den ↔ den < 2 * num := by
  rcases Nat.lt_or_ge num den with hlt | hge
  · rw [roundDiv, Nat.div_eq_of_lt hlt, Nat.mod_eq_of_lt hlt]
    split_ifs <;> omega
  · have hquotient : 0 < num / den := Nat.div_pos hge hden
    refine iff_of_true ?_ (by omega)
    simp only [roundDiv]
    split_ifs <;> omega

theorem isPositive_toDigits (n : Nat) : isPositive (Nat.toDigits 10 n) = true ↔ 0 < n := by
  have hunsigned : isUnsigned (Nat.toDigits 10 n) = true := isUnsigned_pointed 0 n
  rw [isPositive, hunsigned, Bool.true_and]
  constructor
  · intro hany
    rcases Nat.eq_zero_or_pos n with rfl | hpos
    · nomatch hany
    · exact hpos
  · intro hpos
    obtain ⟨ch, rest, heq, hdigit⟩ := Decimal.exists_toDigits n
    have hzero : ch ≠ '0' := by
      have hhead := Decimal.head?_toDigits_ne_zero hpos
      rw [heq] at hhead
      rintro rfl
      exact hhead rfl
    simp [heq, hdigit, hzero]

theorem isPositive_minus (text : List Char) : isPositive ('-' :: text) = false := by
  simp [isPositive, isUnsigned]

open Double in
/-- What is written without places is positive just where it is not rounded to zero. -/
theorem isPositive_chars_ofFloat (x : Float) :
    isPositive (ofFloat 0 x).chars = true ↔ 1 / 2 < value x := by
  have hunits (m : Nat) (e : Int) :
      isPositive (pointed 0 (roundDiv (Exact.numerator m e * Nat.pow 10 0) (Exact.denominator e))) =
        true ↔ 1 / 2 < magnitude m e := by
    have hden : 0 < Exact.denominator e := Nat.two_pow_pos _
    have hcast : (0 : ℚ) < Exact.denominator e := by exact_mod_cast hden
    have hone : Nat.pow 10 0 = 1 := rfl
    rw [magnitude_eq_div, div_lt_div_iff₀ two_pos hcast, hone, Nat.mul_one, one_mul]
    refine (isPositive_toDigits _).trans ((roundDiv_pos_iff hden).trans ?_)
    rw [Nat.mul_comm 2]
    norm_cast
  have hzero : ¬ (1 / 2 : ℚ) < 0 := by norm_num
  simp only [ofFloat, Exact.ofFloat, value]
  cases x.toModel.unpack with
  | notANumber => exact iff_of_false Bool.noConfusion hzero
  | infinity s => cases s <;> exact iff_of_false Bool.noConfusion hzero
  | zero s =>
    refine iff_of_false ?_ hzero
    cases s <;> decide
  | finite s m e hm =>
    cases s with
    | positive => exact hunits m e
    | negative =>
      refine iff_of_false (Bool.eq_false_iff.mp (isPositive_minus _)) ?_
      have hnonneg := magnitude_nonneg m e
      simp only [Double.signed]
      linarith

end Fixed

/-! ## Written lines -/

namespace Gcode.Line

/-- Whether a line changes the mode, or has words that the printer moves or counts by. -/
structure Regular (line : Line) : Prop where
  plain : line.Plain
  alpha : ∀ w ∈ line.words, w.letter.isAlpha
  number : if line.words = [] then line.g = 90 ∨ line.g = 91 else line.g = 1 ∨ line.g = 92

variable {line : Line}

/-- A line that is written is well formed just where its values are finite. -/
theorem isWellFormed_render (h : line.Regular) :
    isWellFormed line.render = line.words.all fun w => w.value.isFinite := by
  have hall : (line.words.map fun w => w.letter :: w.value.chars).all isWord =
      line.words.all fun w => w.value.isFinite := by
    rw [List.all_map, Bool.eq_iff_iff, List.all_eq_true, List.all_eq_true]
    refine forall₂_congr fun w hw => ?_
    rw [Function.comp_apply, isWord, h.alpha w hw, Bool.true_and, Fixed.isNumber_chars]
  have hnumber := h.number
  rw [isWellFormed, render, String.toList_ofList, splitOn_chars h.plain, fields]
  cases hwords : line.words with
  | nil =>
    rw [if_pos hwords] at hnumber
    rcases hnumber with hg | hg <;> rw [hg] <;> rfl
  | cons w ws =>
    rw [if_neg (hwords ▸ List.cons_ne_nil w ws)] at hnumber
    rw [hwords] at hall
    have hhead : ('G' :: Nat.toDigits 10 line.g.toNat = ['G', '1'] ||
        'G' :: Nat.toDigits 10 line.g.toNat = ['G', '9', '2'] : Bool) = true := by
      rcases hnumber with hg | hg <;> rw [hg] <;> rfl
    exact (congrArg₂ and hhead hall).trans (Bool.true_and _)

/-- The feed word of a line is positive where the text of its value is. -/
theorem hasPositiveFeed_render (h : line.Plain) : hasPositiveFeed line.render =
    (line.words.find? fun w => w.letter = 'F').any fun w => isPositive w.value.chars := by
  rw [hasPositiveFeed, render, String.toList_ofList, splitOn_chars h, field?_fields line (by decide),
    Option.any_map]

end Gcode.Line

end PrinterShadow
