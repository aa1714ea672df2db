import Mathlib.Algebra.Field.Rat
import Mathlib.Computability.RegularExpressions

/-!
The pattern of a numeral, `[+-]?([0-9]+([.][0-9]*)?|[.][0-9]+)([eE][+-]?[0-9]+)?`. What it matches
are the numerals as they are written: a sign or none, digits with a fraction or without one, at least
one digit in all, and an exponent or none.
-/

namespace PrinterShadow

namespace Numeral

/-! ## Patterns -/

def oneOf (cs : List Char) : RegularExpression Char := (cs.map .char).sum

def optional (r : RegularExpression Char) : RegularExpression Char := 1 + r

def some1 (r : RegularExpression Char) : RegularExpression Char := r * r.star

def digit : RegularExpression Char := oneOf ['0', '1', '2', '3', '4', '5', '6', '7', '8', '9']

def signPattern : RegularExpression Char := optional (oneOf ['+', '-'])

def mantissaPattern : RegularExpression Char :=
  some1 digit * optional (.char '.' * digit.star) + .char '.' * some1 digit

def exponentPattern : RegularExpression Char := oneOf ['e', 'E'] * signPattern * some1 digit

def pattern : RegularExpression Char :=
  signPattern * mantissaPattern * optional exponentPattern

section Matching

variable {cs text : List Char} {r : RegularExpression Char} {ch : Char}

theorem mem_oneOf : text ∈ (oneOf cs).matches' ↔ ∃ ch ∈ cs, text = [ch] := by
  induction cs with
  | nil => simp [oneOf]
  | cons c cs ih =>
    have hcons : text ∈ (oneOf (c :: cs)).matches' ↔
        text = [c] ∨ text ∈ (oneOf cs).matches' := by
      simp only [oneOf, List.map_cons, List.sum_cons]
      exact Iff.rfl
    rw [hcons, ih, List.exists_mem_cons_iff]

theorem mem_optional : text ∈ (optional r).matches' ↔ text = [] ∨ text ∈ r.matches' := Iff.rfl

theorem mem_char : text ∈ (RegularExpression.char ch).matches' ↔ text = [ch] := Iff.rfl

theorem mem_digit : text ∈ digit.matches' ↔ ∃ ch : Char, ch.isDigit ∧ text = [ch] := by
  have hdigits : ∀ ch : Char,
      ch ∈ ['0', '1', '2', '3', '4', '5', '6', '7', '8', '9'] ↔ ch.isDigit := by
    intro ch
    rw [Char.isDigit_iff_toNat]
    simp only [List.mem_cons, List.not_mem_nil, or_false, ← Char.toNat_inj]
    simp only [Char.reduceToNat]
    omega
  rw [digit, mem_oneOf]
  simp only [hdigits]

theorem mem_star_digit : text ∈ digit.star.matches' ↔ ∀ ch ∈ text, ch.isDigit := by
  rw [RegularExpression.matches'_star, Language.mem_kstar]
  constructor
  · rintro ⟨parts, rfl, hparts⟩ ch hch
    obtain ⟨part, hpart, hch⟩ := List.mem_flatten.mp hch
    obtain ⟨ch', hdigit, rfl⟩ := mem_digit.mp (hparts part hpart)
    rwa [List.mem_singleton.mp hch]
  · intro htext
    refine ⟨text.map fun ch => [ch], by simp [← List.flatMap_def], fun part hpart => ?_⟩
    obtain ⟨ch, hch, rfl⟩ := List.mem_map.mp hpart
    exact mem_digit.mpr ⟨ch, htext ch hch, rfl⟩

theorem mem_some1_digit :
    text ∈ (some1 digit).matches' ↔ text ≠ [] ∧ ∀ ch ∈ text, ch.isDigit := by
  rw [some1, RegularExpression.matches'_mul, Language.mem_mul]
  simp only [mem_digit, mem_star_digit]
  constructor
  · rintro ⟨_, ⟨ch, hdigit, rfl⟩, rest, hrest, rfl⟩
    exact ⟨List.cons_ne_nil _ _, List.forall_mem_cons.mpr ⟨hdigit, hrest⟩⟩
  · rintro ⟨hne, hdigits⟩
    obtain ⟨ch, rest, rfl⟩ := List.exists_cons_of_ne_nil hne
    obtain ⟨hdigit, hrest⟩ := List.forall_mem_cons.mp hdigits
    exact ⟨[ch], ⟨ch, hdigit, rfl⟩, rest, hrest, rfl⟩

end Matching

/-! ## Written numerals -/

/-- A sign as it is written, if it is. -/
inductive Mark where
  | absent | plus | minus

def Mark.chars : Mark → List Char
  | .absent => []
  | .plus => ['+']
  | .minus => ['-']

def Mark.negative : Mark → Bool
  | .minus => true
  | _ => false

/-- An exponent as it is written: its letter, its sign and its digits. -/
structure Power where
  letter : Char
  mark : Mark
  run : List Char
  letter_eq : letter = 'e' ∨ letter = 'E'
  ne_nil : run ≠ []
  isDigit : ∀ ch ∈ run, ch.isDigit

namespace Power

def chars (x : Power) : List Char := x.letter :: (x.mark.chars ++ x.run)

def value (x : Power) : Int :=
  if x.mark.negative then -Nat.ofDigitChars 10 x.run 0 else Nat.ofDigitChars 10 x.run 0

end Power

/-- A numeral as it is written: its sign, the digits of its whole part, those after its point, if
there is one, and its exponent, if there is one. -/
structure Written where
  mark : Mark
  whole : List Char
  frac : Option (List Char)
  power : Option Power
  isDigit_whole : ∀ ch ∈ whole, ch.isDigit
  isDigit_frac : ∀ run ∈ frac, ∀ ch ∈ run, ch.isDigit
  ne_nil : whole ≠ [] ∨ ∃ run ∈ frac, run ≠ []

namespace Written

def fracChars (w : Written) : List Char := w.frac.elim [] ('.' :: ·)

def powerChars (w : Written) : List Char := w.power.elim [] Power.chars

def chars (w : Written) : List Char :=
  w.mark.chars ++ (w.whole ++ (w.fracChars ++ w.powerChars))

/-- The exact value of a numeral without its sign. -/
def magnitude (w : Written) : ℚ :=
  let frac := w.frac.getD []
  (Nat.ofDigitChars 10 w.whole 0 + Nat.ofDigitChars 10 frac 0 / 10 ^ frac.length) *
    10 ^ w.power.elim 0 Power.value

end Written

section Matching

variable {text : List Char}

theorem mem_signPattern : text ∈ signPattern.matches' ↔ ∃ mark : Mark, mark.chars = text := by
  rw [signPattern, mem_optional, mem_oneOf]
  constructor
  · rintro (rfl | ⟨ch, hch, rfl⟩)
    · exact ⟨.absent, rfl⟩
    · rcases List.mem_pair.mp hch with rfl | rfl
      · exact ⟨.plus, rfl⟩
      · exact ⟨.minus, rfl⟩
  · rintro ⟨mark, rfl⟩
    cases mark with
    | absent => exact .inl rfl
    | plus => exact .inr ⟨'+', by decide, rfl⟩
    | minus => exact .inr ⟨'-', by decide, rfl⟩

theorem mem_exponentPattern :
    text ∈ exponentPattern.matches' ↔ ∃ x : Power, x.chars = text := by
  simp only [exponentPattern, RegularExpression.matches'_mul, Language.mem_mul, mem_oneOf,
    mem_signPattern, mem_some1_digit]
  constructor
  · rintro ⟨_, ⟨_, ⟨letter, hletter, rfl⟩, _, ⟨mark, rfl⟩, rfl⟩, run, ⟨hne, hdigits⟩, rfl⟩
    exact ⟨⟨letter, mark, run, List.mem_pair.mp hletter, hne, hdigits⟩, by simp [Power.chars]⟩
  · rintro ⟨⟨letter, mark, run, hletter, hne, hdigits⟩, rfl⟩
    exact ⟨_, ⟨_, ⟨letter, List.mem_pair.mpr hletter, rfl⟩, _, ⟨mark, rfl⟩, rfl⟩, run,
      ⟨hne, hdigits⟩, by simp [Power.chars]⟩

theorem mem_mantissaPattern :
    text ∈ mantissaPattern.matches' ↔
      ∃ (whole : List Char) (frac : Option (List Char)), (∀ ch ∈ whole, ch.isDigit) ∧
        (∀ run ∈ frac, ∀ ch ∈ run, ch.isDigit) ∧ (whole ≠ [] ∨ ∃ run ∈ frac, run ≠ []) ∧
          whole ++ frac.elim [] ('.' :: ·) = text := by
  simp only [mantissaPattern, RegularExpression.matches'_add, RegularExpression.matches'_mul,
    Language.mem_add, Language.mem_mul, mem_optional, mem_char, mem_some1_digit, mem_star_digit]
  constructor
  · rintro (⟨whole, ⟨hne, hwhole⟩, _, rfl | ⟨_, rfl, run, hrun, rfl⟩, rfl⟩ |
      ⟨_, rfl, run, ⟨hne, hrun⟩, rfl⟩)
    · exact ⟨whole, none, hwhole, nofun, .inl hne, rfl⟩
    · exact ⟨whole, some run, hwhole, by simpa using hrun, .inl hne, rfl⟩
    · exact ⟨[], some run, nofun, by simpa using hrun, .inr ⟨run, rfl, hne⟩, rfl⟩
  · rintro ⟨whole, frac, hwhole, hfrac, hne, rfl⟩
    by_cases hnil : whole = []
    · obtain ⟨run, rfl, hrun⟩ := hne.resolve_left (not_not.mpr hnil)
      subst hnil
      exact .inr ⟨_, rfl, run, ⟨hrun, hfrac run rfl⟩, rfl⟩
    · refine .inl ⟨whole, ⟨hnil, hwhole⟩, _, ?_, rfl⟩
      cases frac with
      | none => exact .inl rfl
      | some run => exact .inr ⟨_, rfl, run, hfrac run rfl, rfl⟩

/-- The pattern matches the numerals as they are written. -/
theorem mem_pattern_iff : text ∈ pattern.matches' ↔ ∃ w : Written, w.chars = text := by
  simp only [pattern, RegularExpression.matches'_mul, Language.mem_mul, mem_optional,
    mem_signPattern, mem_mantissaPattern, mem_exponentPattern]
  constructor
  · rintro ⟨_, ⟨_, ⟨mark, rfl⟩, _, ⟨whole, frac, hwhole, hfrac, hne, rfl⟩, rfl⟩, _,
      rfl | ⟨x, rfl⟩, rfl⟩
    · exact ⟨⟨mark, whole, frac, none, hwhole, hfrac, hne⟩,
        by simp [Written.chars, Written.fracChars, Written.powerChars]⟩
    · exact ⟨⟨mark, whole, frac, some x, hwhole, hfrac, hne⟩,
        by simp [Written.chars, Written.fracChars, Written.powerChars]⟩
  · rintro ⟨⟨mark, whole, frac, power, hwhole, hfrac, hne⟩, rfl⟩
    refine ⟨_, ⟨_, ⟨mark, rfl⟩, _, ⟨whole, frac, hwhole, hfrac, hne, rfl⟩, rfl⟩,
      power.elim [] Power.chars, ?_, by simp [Written.chars, Written.fracChars, Written.powerChars]⟩
    cases power with
    | none => exact .inl rfl
    | some x => exact .inr ⟨x, rfl⟩

end Matching

end Numeral

end PrinterShadow
