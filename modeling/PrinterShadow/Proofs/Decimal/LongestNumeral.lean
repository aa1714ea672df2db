import PrinterShadow.Proofs.Decimal.Pattern
import PrinterShadow.Proofs.Decimal.Rounding

/-!
The scanner of numerals finds the longest one at the front of a text: what it takes for a sign,
digits, a fraction and an exponent cannot be continued by what follows. It is read as the nearest
double, and the cut behind it is one between characters.
-/

namespace PrinterShadow

/-- A pattern matches at the front of a text, and nowhere farther. -/
structure LongestMatch (r : RegularExpression Char) (text p : List Char) : Prop where
  front : p <+: text
  mem : p ∈ r.matches'
  le : ∀ p', p' <+: text → p' ∈ r.matches' → p'.length ≤ p.length

namespace Numeral

/-! ## The parts of a written numeral -/

theorem sign_chars (mark : Mark) {text : List Char}
    (h : ∀ ch ∈ text.head?, ch ≠ '+' ∧ ch ≠ '-') :
    sign (mark.chars ++ text) = (mark.negative, text) := by
  cases mark with
  | plus | minus => rfl
  | absent =>
    cases text with
    | nil => rfl
    | cons ch text =>
      obtain ⟨hplus, hminus⟩ := h ch rfl
      simp [Mark.chars, Mark.negative, sign, hplus, hminus]

theorem exists_mark (text : List Char) : ∃ mark : Mark, mark.chars ++ (sign text).2 = text := by
  unfold sign
  split
  · exact ⟨.minus, rfl⟩
  · exact ⟨.plus, rfl⟩
  · exact ⟨.absent, rfl⟩

theorem ne_sign_of_isDigit {ch : Char} (h : ch.isDigit) : ch ≠ '+' ∧ ch ≠ '-' := by
  constructor <;> rintro rfl <;> nomatch h

theorem exponent_chars (x : Power) {rest : List Char}
    (hrest : ∀ ch ∈ rest.head?, ch.isDigit = false) :
    exponent (x.chars ++ rest) = (x.value, rest) := by
  have hsign : sign (x.mark.chars ++ (x.run ++ rest)) = (x.mark.negative, x.run ++ rest) := by
    obtain ⟨ch, run, hrun⟩ := List.exists_cons_of_ne_nil x.ne_nil
    refine sign_chars x.mark fun c hc => ?_
    rw [hrun, List.cons_append, List.head?_cons, Option.mem_some_iff] at hc
    subst hc
    exact ne_sign_of_isDigit (x.isDigit ch (hrun ▸ List.mem_cons_self))
  have hchars : x.chars ++ rest = x.letter :: (x.mark.chars ++ (x.run ++ rest)) := by
    simp [Power.chars]
  rw [hchars, exponent]
  simp only [hsign, digits_append_of x.isDigit hrest]
  rw [if_pos ⟨x.letter_eq, x.ne_nil⟩, Power.value]

/-- Where no exponent begins, none is taken. -/
theorem exponent_of_forall_not {text : List Char} (h : ∀ x : Power, ¬ x.chars <+: text) :
    exponent text = (0, text) := by
  cases text with
  | nil => rfl
  | cons letter rest =>
    rw [exponent]
    dsimp only
    refine if_neg fun hcond => ?_
    obtain ⟨mark, hmark⟩ := exists_mark rest
    let x : Power := ⟨letter, mark, (digits (sign rest).2).1, hcond.1, hcond.2,
      fun _ => isDigit_of_mem_digits⟩
    refine h x ⟨(digits (sign rest).2).2, ?_⟩
    rw [Power.chars, List.cons_append, List.append_assoc, digits_append, hmark]

theorem fraction_of_ne_point {text : List Char} (h : ∀ ch ∈ text.head?, ch ≠ '.') :
    fraction text = ([], text) := by
  unfold fraction
  split
  · exact absurd rfl (h '.' rfl)
  · rfl

/-- What is taken for a fraction is a point with the digits after it, or nothing. -/
theorem exists_frac (text : List Char) :
    ∃ frac : Option (List Char), (∀ run ∈ frac, ∀ ch ∈ run, ch.isDigit) ∧
      (fraction text).1 = frac.getD [] ∧ frac.elim [] ('.' :: ·) ++ (fraction text).2 = text := by
  unfold fraction
  split
  case h_1 rest =>
    refine ⟨some (digits rest).1, ?_, rfl, congrArg ('.' :: ·) (digits_append rest)⟩
    intro run hrun ch
    obtain rfl := Option.some.inj hrun
    exact isDigit_of_mem_digits
  case h_2 => exact ⟨none, nofun, rfl, rfl⟩

/-- Where the scanner finds a numeral, there is one at the front of the text. -/
theorem exists_written_of_split? {text : List Char} (h : split? text ≠ none) :
    ∃ w : Written, w.chars <+: text := by
  obtain ⟨mark, hmark⟩ := exists_mark text
  obtain ⟨frac, hfrac, hvalue, hchars⟩ := exists_frac (digits (sign text).2).2
  have hne : (digits (sign text).2).1 ≠ [] ∨ ∃ run ∈ frac, run ≠ [] := by
    by_contra hnil
    obtain ⟨hwhole, hrun⟩ := not_or.mp hnil
    have hempty : frac.getD [] = [] := by
      cases frac with
      | none => rfl
      | some run => exact by_contra fun hne => hrun ⟨run, rfl, hne⟩
    have hnone : (digits (sign text).2).1 = [] ∧ (fraction (digits (sign text).2).2).1 = [] :=
      ⟨not_not.mp hwhole, hvalue.trans hempty⟩
    exact h (if_pos hnone)
  refine ⟨⟨mark, _, frac, none, fun _ => isDigit_of_mem_digits, hfrac, hne⟩,
    (fraction (digits (sign text).2).2).2, ?_⟩
  conv_rhs => rw [← hmark, ← digits_append (sign text).2, ← hchars]
  simp [Written.chars, Written.fracChars, Written.powerChars]

namespace Written

variable {w : Written} {rest : List Char}

/-- No written numeral at the front of a text is longer than this one. -/
def Maximal (w : Written) (rest : List Char) : Prop :=
  ∀ w' : Written, w'.chars <+: w.chars ++ rest → w'.chars.length ≤ w.chars.length

theorem Maximal.not_front (h : w.Maximal rest) (w' : Written) {more : List Char}
    (hchars : w'.chars = w.chars ++ more) (hmore : more ≠ []) : ¬ more <+: rest := by
  intro hfront
  have hle := h w' (by rw [hchars]; exact (List.prefix_append_right_inj _).mpr hfront)
  rw [hchars, List.length_append] at hle
  have := List.length_pos_of_ne_nil hmore
  omega

/-- A further digit would belong to the last part of the numeral, whichever that is. -/
theorem Maximal.isDigit_head? (h : w.Maximal rest) : ∀ ch ∈ rest.head?, ch.isDigit = false := by
  intro ch hch
  by_contra hdigit
  rw [Bool.not_eq_false] at hdigit
  have hfront : [ch] <+: rest := by
    obtain ⟨tail, rfl⟩ := List.head?_eq_some_iff.mp hch
    exact ⟨tail, rfl⟩
  have hlonger {run : List Char} (hrun : ∀ c ∈ run, c.isDigit) :
      ∀ c ∈ run ++ [ch], c.isDigit :=
    List.forall_mem_append.mpr ⟨hrun, List.forall_mem_singleton.mpr hdigit⟩
  obtain ⟨mark, whole, frac, power, hwhole, hfrac, hne⟩ := w
  cases power with
  | some x =>
    let x' : Power := { x with
      run := x.run ++ [ch]
      ne_nil := List.append_ne_nil_of_left_ne_nil x.ne_nil _
      isDigit := hlonger x.isDigit }
    refine h.not_front ⟨mark, whole, frac, some x', hwhole, hfrac, hne⟩ ?_
      (List.cons_ne_nil ch []) hfront
    simp [chars, fracChars, powerChars, Power.chars, x']
  | none =>
    cases frac with
    | some run =>
      refine h.not_front ⟨mark, whole, some (run ++ [ch]), none, hwhole, ?_, .inr ⟨_, rfl, ?_⟩⟩ ?_
        (List.cons_ne_nil ch []) hfront
      · intro run' hrun'
        obtain rfl := Option.some.inj hrun'
        exact hlonger (hfrac run rfl)
      · exact List.append_ne_nil_of_right_ne_nil _ (List.cons_ne_nil ch [])
      · simp [chars, fracChars, powerChars]
    | none =>
      refine h.not_front ⟨mark, whole ++ [ch], none, none, hlonger hwhole, hfrac, .inl ?_⟩ ?_
        (List.cons_ne_nil ch []) hfront
      · exact List.append_ne_nil_of_right_ne_nil _ (List.cons_ne_nil ch [])
      · simp [chars, fracChars, powerChars]

/-- A point would belong to a numeral without one. -/
theorem Maximal.ne_point_head? (h : w.Maximal rest) (hpower : w.power = none)
    (hfrac : w.frac = none) : ∀ ch ∈ rest.head?, ch ≠ '.' := by
  rintro ch hch rfl
  obtain ⟨tail, rfl⟩ := List.head?_eq_some_iff.mp hch
  obtain ⟨mark, whole, _, _, hwhole, _, hne⟩ := w
  obtain rfl := hpower
  obtain rfl := hfrac
  have hne' : whole ≠ [] := hne.resolve_right (by rintro ⟨_, hnone, -⟩; nomatch hnone)
  have hempty : ∀ run ∈ some ([] : List Char), ∀ ch ∈ run, ch.isDigit := by simp
  refine h.not_front ⟨mark, whole, some [], none, hwhole, hempty, .inl hne'⟩ ?_
    (List.cons_ne_nil '.' []) ⟨tail, rfl⟩
  simp [chars, fracChars, powerChars]

/-- An exponent would belong to a numeral without one. -/
theorem Maximal.not_power_front (h : w.Maximal rest) (hpower : w.power = none) (x : Power) :
    ¬ x.chars <+: rest := by
  obtain ⟨mark, whole, frac, _, hwhole, hfrac, hne⟩ := w
  obtain rfl := hpower
  refine h.not_front ⟨mark, whole, frac, some x, hwhole, hfrac, hne⟩ ?_ (List.cons_ne_nil _ _)
  simp [chars, fracChars, powerChars]

/-! ## The scanner -/

/-- The decimal that a written numeral denotes. -/
def decimal (w : Written) : Decimal where
  negative := w.mark.negative
  significand := Nat.ofDigitChars 10 (w.whole ++ w.frac.getD []) 0
  exponent := w.power.elim 0 Power.value - (w.frac.getD []).length

theorem decimal_value (w : Written) :
    (w.decimal.significand * 10 ^ w.decimal.exponent : ℚ) = w.magnitude := by
  have hten : (10 : ℚ) ≠ 0 := by norm_num
  rw [decimal, magnitude, Nat.ofDigitChars_append, Nat.ofDigitChars_eq_ofDigitChars_zero,
    zpow_sub₀ hten, zpow_natCast]
  push_cast
  field_simp

theorem Maximal.head?_powerChars (h : w.Maximal rest) :
    ∀ ch ∈ (w.powerChars ++ rest).head?, ch.isDigit = false ∧ (w.frac = none → ch ≠ '.') := by
  intro ch hch
  rw [powerChars] at hch
  cases hpower : w.power with
  | none =>
    rw [hpower] at hch
    exact ⟨h.isDigit_head? ch hch, fun hfrac => h.ne_point_head? hpower hfrac ch hch⟩
  | some x =>
    rw [hpower] at hch
    obtain rfl := Option.some.inj hch
    rcases x.letter_eq with heq | heq <;> rw [heq] <;> exact ⟨by decide, fun _ => by decide⟩

theorem head?_ne_sign (w : Written) {text : List Char} :
    ∀ ch ∈ (w.whole ++ (w.fracChars ++ text)).head?, ch ≠ '+' ∧ ch ≠ '-' := by
  intro ch hch
  cases hwhole : w.whole with
  | cons c whole =>
    rw [hwhole] at hch
    obtain rfl := Option.some.inj hch
    exact ne_sign_of_isDigit (w.isDigit_whole c (hwhole ▸ List.mem_cons_self))
  | nil =>
    obtain ⟨run, hrun, -⟩ := w.ne_nil.resolve_left (not_not.mpr hwhole)
    rw [hwhole, fracChars, Option.mem_def.mp hrun] at hch
    obtain rfl := Option.some.inj hch
    decide

/-- The parts of a numeral are split off one by one. -/
theorem Maximal.split? (h : w.Maximal rest) :
    split? (w.chars ++ rest) = some (w.decimal, rest) := by
  have hpower : exponent (w.powerChars ++ rest) = (w.power.elim 0 Power.value, rest) := by
    rw [powerChars]
    cases hpower : w.power with
    | none => exact exponent_of_forall_not (h.not_power_front hpower)
    | some x => exact exponent_chars x h.isDigit_head?
  have hfrac : fraction (w.fracChars ++ (w.powerChars ++ rest)) =
      (w.frac.getD [], w.powerChars ++ rest) := by
    rw [fracChars]
    cases hfrac : w.frac with
    | none => exact fraction_of_ne_point fun ch hch => (h.head?_powerChars ch hch).2 hfrac
    | some run =>
      exact digits_append_of (w.isDigit_frac run hfrac) fun ch hch => (h.head?_powerChars ch hch).1
  have hwhole : digits (w.whole ++ (w.fracChars ++ (w.powerChars ++ rest))) =
      (w.whole, w.fracChars ++ (w.powerChars ++ rest)) := by
    refine digits_append_of w.isDigit_whole fun ch hch => ?_
    rw [fracChars] at hch
    cases hfrac : w.frac with
    | none =>
      rw [hfrac] at hch
      exact (h.head?_powerChars ch hch).1
    | some run =>
      rw [hfrac] at hch
      obtain rfl := Option.some.inj hch
      rfl
  have hsign : sign (w.chars ++ rest) =
      (w.mark.negative, w.whole ++ (w.fracChars ++ (w.powerChars ++ rest))) := by
    rw [chars, List.append_assoc, List.append_assoc, List.append_assoc]
    exact sign_chars w.mark w.head?_ne_sign
  have hne : ¬ (w.whole = [] ∧ w.frac.getD [] = []) := by
    rintro ⟨hwhole, hfrac⟩
    obtain ⟨run, hrun, hne⟩ := w.ne_nil.resolve_left (not_not.mpr hwhole)
    rw [Option.mem_def.mp hrun] at hfrac
    exact hne hfrac
  simp only [Numeral.split?, hsign, hwhole, hfrac, hpower, if_neg hne]
  rfl

theorem utf8Size_of_mem_chars {ch : Char} (h : ch ∈ w.chars) : ch.utf8Size = 1 := by
  have hdigit {run : List Char} (hrun : ∀ c ∈ run, c.isDigit) (hch : ch ∈ run) :
      ch.utf8Size = 1 := by
    have hle := (Char.isDigit_iff_toNat.mp (hrun ch hch)).2
    exact Char.utf8Size_eq_one_iff.mpr (UInt32.le_iff_toNat_le.mpr (hle.trans (by decide)))
  have hmark {mark : Mark} (hch : ch ∈ mark.chars) : ch.utf8Size = 1 := by
    cases mark with
    | absent => exact absurd hch List.not_mem_nil
    | plus | minus =>
      rw [List.mem_singleton.mp hch]
      rfl
  have hfrac (hch : ch ∈ w.fracChars) : ch.utf8Size = 1 := by
    rw [fracChars] at hch
    cases hrun : w.frac with
    | none =>
      rw [hrun] at hch
      exact absurd hch List.not_mem_nil
    | some run =>
      rw [hrun] at hch
      rcases List.mem_cons.mp hch with rfl | hch
      · rfl
      · exact hdigit (w.isDigit_frac run hrun) hch
  have hpower (hch : ch ∈ w.powerChars) : ch.utf8Size = 1 := by
    rw [powerChars] at hch
    cases hx : w.power with
    | none =>
      rw [hx] at hch
      exact absurd hch List.not_mem_nil
    | some x =>
      rw [hx] at hch
      rcases List.mem_cons.mp hch with rfl | hch
      · rcases x.letter_eq with heq | heq <;> rw [heq] <;> rfl
      · exact (List.mem_append.mp hch).elim hmark (hdigit x.isDigit)
  simp only [chars, List.mem_append] at h
  rcases h with h | h | h | h
  · exact hmark h
  · exact hdigit w.isDigit_whole h
  · exact hfrac h
  · exact hpower h

theorem longestMatch_iff :
    LongestMatch pattern (w.chars ++ rest) w.chars ↔ w.Maximal rest := by
  constructor
  · exact fun h w' hfront => h.le _ hfront (mem_pattern_iff.mpr ⟨w', rfl⟩)
  · refine fun h => ⟨List.prefix_append _ _, mem_pattern_iff.mpr ⟨w, rfl⟩, ?_⟩
    rintro _ hfront hmem
    obtain ⟨w', rfl⟩ := mem_pattern_iff.mp hmem
    exact h w' hfront

end Written

/-- Of the numerals at the front of a text one is the longest. -/
theorem exists_longestMatch {text : List Char} (h : ∃ p, p <+: text ∧ p ∈ pattern.matches') :
    ∃ w : Written, LongestMatch pattern text w.chars := by
  classical
  obtain ⟨p, hp⟩ := h
  obtain ⟨longest, ⟨hfront, hmem⟩, hlength⟩ :=
    Nat.findGreatest_spec (P := fun k => ∃ p, (p <+: text ∧ p ∈ pattern.matches') ∧ p.length = k)
      hp.1.length_le ⟨p, hp, rfl⟩
  obtain ⟨w, rfl⟩ := mem_pattern_iff.mp hmem
  refine ⟨w, hfront, hmem, fun p' hfront' hmem' => ?_⟩
  rw [hlength]
  exact Nat.le_findGreatest hfront'.length_le ⟨p', ⟨hfront', hmem'⟩, rfl⟩

end Numeral

theorem utf8ByteSize_ofList {chars : List Char} (h : ∀ ch ∈ chars, ch.utf8Size = 1) :
    (String.ofList chars).utf8ByteSize = chars.length := by
  induction chars with
  | nil => rfl
  | cons ch chars ih =>
    obtain ⟨hch, hchars⟩ := List.forall_mem_cons.mp h
    have hsplit : String.ofList (ch :: chars) = String.singleton ch ++ String.ofList chars := by
      rw [String.singleton_eq_ofList, ← String.ofList_append]
      rfl
    rw [hsplit, String.utf8ByteSize_append, String.utf8ByteSize_singleton, hch, ih hchars,
      List.length_cons, Nat.add_comm]

open Double Numeral in
/-- What is read is the longest prefix that the pattern matches, and nothing where it matches none:
the double nearest to its exact value, with its sign, and never no number. The prefix has a byte for
each of its characters, and it ends between two characters of the text. -/
theorem leadingNumber_longest (text : String) :
    ((∀ p, p <+: text.toList → p ∉ pattern.matches') → leadingNumber? text.toList = none) ∧
      ((∃ p, p <+: text.toList ∧ p ∈ pattern.matches') →
        ∃ w : Written, LongestMatch pattern text.toList w.chars) ∧
      (∀ w : Written, LongestMatch pattern text.toList w.chars →
        (∃ x, RoundsTo w.magnitude x ∧
            leadingNumber? text.toList = some (if w.mark.negative then -x else x)) ∧
          (String.ofList w.chars).utf8ByteSize = w.chars.length ∧
          String.Pos.Raw.IsValid text ⟨w.chars.length⟩) ∧
      ∀ v, leadingNumber? text.toList = some v → v ≠ .nan := by
  refine ⟨fun hnone => ?_, exists_longestMatch, fun w hlongest => ?_,
    fun v => leadingNumber?_ne_nan⟩
  · refine Option.map_eq_none_iff.mpr (by_contra fun hsome => ?_)
    obtain ⟨w, hfront⟩ := exists_written_of_split? hsome
    exact hnone _ hfront (mem_pattern_iff.mpr ⟨w, rfl⟩)
  · have hbytes : (String.ofList w.chars).utf8ByteSize = w.chars.length :=
      utf8ByteSize_ofList fun _ => Written.utf8Size_of_mem_chars
    obtain ⟨rest, htext⟩ := hlongest.front
    rw [← htext] at hlongest
    obtain ⟨x, hrounds, hread⟩ := w.decimal.exists_roundsTo_toFloat
    rw [w.decimal_value] at hrounds
    refine ⟨⟨x, hrounds, ?_⟩, hbytes, String.Pos.Raw.isValid_iff_exists_take_toList.mpr
      ⟨w.chars.length, ?_⟩⟩
    · rw [← htext, leadingNumber?, (Written.longestMatch_iff.mp hlongest).split?, Option.map_some]
      exact congrArg some hread
    · rw [← htext, List.take_left]
      exact hbytes.symm

/-- The numeral `-2.5`. -/
def minusTwoAndAHalf : Numeral.Written where
  mark := .minus
  whole := ['2']
  frac := some ['5']
  power := none
  isDigit_whole := List.forall_mem_singleton.mpr rfl
  isDigit_frac := by
    rintro _ ⟨⟩
    exact List.forall_mem_singleton.mpr rfl
  ne_nil := .inl (by decide)

open Numeral in
/-- An exponent without digits is left over, as is what follows it. -/
theorem leadingNumber_danglingExponent :
    ∃ x, Double.RoundsTo minusTwoAndAHalf.magnitude x ∧
      leadingNumber? "-2.5e+€".toList = some (-x) := by
  have hlongest : LongestMatch pattern "-2.5e+€".toList minusTwoAndAHalf.chars := by
    have hall : ∀ k ≤ 7, "-2.5e+€".toList.take k ∈ pattern.matches' → k ≤ 4 := by
      decide +kernel
    refine ⟨⟨['e', '+', '€'], by decide +kernel⟩, mem_pattern_iff.mpr ⟨_, rfl⟩,
      fun p hfront hmem => hall p.length hfront.length_le ?_⟩
    rwa [← List.prefix_iff_eq_take.mp hfront]
  exact ((leadingNumber_longest "-2.5e+€").2.2.1 minusTwoAndAHalf hlongest).1

end PrinterShadow
