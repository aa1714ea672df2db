import PrinterShadow.Proofs.Decimal.Reading
import PrinterShadow.Toml.Scalar

/-!
Numbers in TOML that are written in positional form read as what was written: digits with a fraction
as the float that the decimal is, and digits alone as the integer. No such text is taken for a date,
a time or one of the names of values that are no finite number.
-/

namespace PrinterShadow

theorem Decimal.head?_toDigits_ne_zero {n : Nat} (hn : 0 < n) :
    (Nat.toDigits 10 n).head? ≠ some '0' := by
  induction n using Nat.strong_induction_on with
  | _ n ih =>
    rw [Nat.toDigits_eq_if (by decide)]
    split_ifs with hlt
    · have hdigit : ∀ m < 10, 0 < m → Nat.digitChar m ≠ '0' := by decide
      simpa using hdigit n hlt hn
    · rw [List.head?_append_of_ne_nil _ Nat.toDigits_ne_nil]
      exact ih (n / 10) (by omega) (by omega)

theorem Decimal.pointed_succ (places n : Nat) : pointed (places + 1) n =
    Nat.toDigits 10 (n / Nat.pow 10 (places + 1)) ++ '.' :: lastDigits (places + 1) n := rfl

namespace Toml

namespace Scalar

open Decimal (signed pointed lastDigits)

variable {negative : Bool} {ch : Char} {token body rest : List Char}

/-! ## Tokens that are no moments -/

theorem twoDigits?_eq_some {n : Nat} (h : twoDigits? token = some (n, rest)) :
    ∃ a b, token = a :: b :: rest ∧ a.isDigit := by
  unfold twoDigits? at h
  split at h
  next a b tail =>
    split_ifs at h with hdigits
    · obtain ⟨-, rfl⟩ := Prod.mk.inj (Option.some.inj h)
      exact ⟨a, b, rfl, (Bool.and_eq_true_iff.mp hdigits).1⟩
  next => nomatch h

theorem skip?_eq_some {c : Char} (h : skip? c token = some rest) : token = c :: rest := by
  unfold skip? at h
  split at h
  next d tail =>
    split_ifs at h with heq
    · rw [heq, Option.some.inj h]
  next => nomatch h

theorem afterDate?_eq_some (h : afterDate? token = some rest) :
    '-' ∈ token ∧ token.head? ≠ some '-' := by
  simp only [afterDate?, Option.bind_eq_bind, Option.bind_eq_some_iff, Prod.exists] at h
  obtain ⟨_, _, hcentury, _, _, hyear, _, hskip, -⟩ := h
  obtain ⟨a, b, rfl, ha⟩ := twoDigits?_eq_some hcentury
  obtain ⟨c, d, rfl, -⟩ := twoDigits?_eq_some hyear
  obtain rfl := skip?_eq_some hskip
  refine ⟨by simp, ?_⟩
  rintro ⟨⟩
  nomatch ha

theorem afterTime?_eq_some (h : afterTime? token = some rest) : ':' ∈ token := by
  simp only [afterTime?, twoDigitsIn?, Option.bind_eq_bind, Option.bind_eq_some_iff,
    Option.filter_eq_some_iff, Prod.exists] at h
  obtain ⟨_, _, ⟨hhours, -⟩, _, hskip, -⟩ := h
  obtain ⟨a, b, rfl, -⟩ := twoDigits?_eq_some hhours
  obtain rfl := skip?_eq_some hskip
  simp

/-- Whether a text holds nothing but digits and points. -/
def IsNumeral (body : List Char) : Prop :=
  ∀ c ∈ body, c.isDigit ∨ c = '.'

theorem IsNumeral.not_mem {c : Char} (h : IsNumeral body) (hdigit : c.isDigit = false)
    (hpoint : c ≠ '.') : c ∉ body := by
  intro hmem
  rcases h c hmem with hc | hc
  · rw [hdigit] at hc
    nomatch hc
  · exact hpoint hc

theorem IsNumeral.afterDate? (h : IsNumeral body) : afterDate? (signed negative body) = none := by
  rw [Option.eq_none_iff_forall_ne_some]
  intro rest hdate
  obtain ⟨hmem, hhead⟩ := afterDate?_eq_some hdate
  cases negative with
  | true => exact hhead rfl
  | false => exact h.not_mem rfl (by decide) hmem

theorem IsNumeral.afterTime? (h : IsNumeral body) : afterTime? (signed negative body) = none := by
  rw [Option.eq_none_iff_forall_ne_some]
  intro rest htime
  have hmem := afterTime?_eq_some htime
  refine h.not_mem (c := ':') rfl (by decide) ?_
  cases negative with
  | true => exact List.mem_of_ne_of_mem (by decide) hmem
  | false => exact hmem

/-! ## Tokens that are numbers -/

theorem IsNumeral.isTokenChar (h : IsNumeral body) :
    ∀ c ∈ signed negative body, isTokenChar c := by
  have hbody : ∀ c ∈ body, Scalar.isTokenChar c := by
    intro c hc
    rcases h c hc with hdigit | rfl
    · simp [Scalar.isTokenChar, Char.isAlphanum, hdigit]
    · rfl
  cases negative with
  | true => exact List.forall_mem_cons.mpr ⟨rfl, hbody⟩
  | false => exact hbody

theorem special?_signed (hdigit : ch.isDigit) : special? (signed negative (ch :: body)) = none := by
  unfold special?
  rw [Numeral.sign_signed negative hdigit]
  split
  next heq => cases heq; nomatch hdigit
  next heq => cases heq; nomatch hdigit
  next => rfl

theorem ofToken?_signed (hdigit : ch.isDigit) (h : IsNumeral (ch :: body)) :
    ofToken? (signed negative (ch :: body)) =
      ((decimal? (signed negative (ch :: body))).map .float
        <|> (integer? (signed negative (ch :: body))).map .integer) := by
  have hhead {c : Char} {tail : List Char} (hc : c.isDigit = false) (hminus : c ≠ '-') :
      signed negative (ch :: body) ≠ c :: tail := by
    cases negative with
    | true => rintro ⟨⟩; exact hminus rfl
    | false => rintro ⟨⟩; rw [hc] at hdigit; nomatch hdigit
  have hmoment : isMoment (signed negative (ch :: body)) = false := by
    simp [isMoment, h.afterDate?, h.afterTime?]
  rw [ofToken?, if_neg (hhead rfl (by decide)), if_neg (hhead rfl (by decide)), hmoment,
    special?_signed hdigit]
  rfl

/-- A number at the end of a line is read from its own characters. -/
theorem read?_signed (negative : Bool) (h : IsNumeral body) (rest : List Char) :
    read? (signed negative body ++ '\n' :: rest) =
      (ofToken? (signed negative body)).map fun scalar => (scalar, '\n' :: rest) := by
  have hend : ('\n' :: rest).takeWhile Scalar.isTokenChar = [] := rfl
  have hrest : ('\n' :: rest).dropWhile Scalar.isTokenChar = '\n' :: rest := rfl
  have hdate : isDate (signed negative body) = false := by simp [isDate, h.afterDate?]
  rw [read?, List.takeWhile_append_of_pos h.isTokenChar, List.dropWhile_append_of_pos h.isTokenChar,
    hend, hrest, List.append_nil, hdate]

theorem grouped?_of_isDigit {run : List Char} (hne : run ≠ []) (hrun : ∀ c ∈ run, c.isDigit) :
    grouped? Char.isDigit run = some run := by
  induction run with
  | nil => exact absurd rfl hne
  | cons c run ih =>
    obtain ⟨hc, hrest⟩ := List.forall_mem_cons.mp hrun
    cases run with
    | nil => simp [grouped?, hc]
    | cons d run =>
      have hd : d ≠ '_' := by rintro rfl; nomatch hrest '_' List.mem_cons_self
      simp [grouped?, hc, hd, ih (by simp) hrest]

theorem whole?_toDigits (n : Nat) : whole? (Nat.toDigits 10 n) = some (Nat.toDigits 10 n) := by
  rw [whole?, grouped?_of_isDigit Nat.toDigits_ne_nil fun _ => Numeral.isDigit_of_mem_toDigits]
  rcases Nat.eq_zero_or_pos n with rfl | hn
  · rfl
  · simp [Option.filter, Decimal.head?_toDigits_ne_zero hn]

theorem isDigitOrBar_of_isDigit {run : List Char} (hrun : ∀ c ∈ run, c.isDigit) :
    ∀ c ∈ run, isDigitOrBar c := by
  intro c hc
  simp [isDigitOrBar, hrun c hc]

theorem sign_toDigits (n : Nat) :
    Numeral.sign (Nat.toDigits 10 n) = (false, Nat.toDigits 10 n) :=
  Numeral.sign_signed_pointed false 0 n

/-- A decimal with a fraction is read as the double that is nearest to it. -/
theorem decimal?_pointed (negative : Bool) (places n : Nat)
    (hfinite : (Decimal.toFloat ⟨negative, n, -(places + 1 : Nat)⟩).isInf = false) :
    decimal? (signed negative (pointed (places + 1) n)) =
      some (Decimal.toFloat ⟨negative, n, -(places + 1 : Nat)⟩) := by
  have hwhole : ∀ c ∈ Nat.toDigits 10 (n / Nat.pow 10 (places + 1)), c.isDigit :=
    fun _ => Numeral.isDigit_of_mem_toDigits
  have hfrac : ∀ c ∈ lastDigits (places + 1) n, c.isDigit :=
    fun _ => Decimal.isDigit_of_mem_lastDigits
  have hne : lastDigits (places + 1) n ≠ [] := List.ne_nil_of_length_eq_add_one
    (Decimal.length_lastDigits (places + 1) n)
  have hvalue : Nat.ofDigitChars 10
      (Nat.toDigits 10 (n / Nat.pow 10 (places + 1)) ++ lastDigits (places + 1) n) 0 = n :=
    Decimal.ofDigitChars_places (places + 1) n
  have hsplit : (pointed (places + 1) n).takeWhile isDigitOrBar =
        Nat.toDigits 10 (n / Nat.pow 10 (places + 1)) ∧
      (pointed (places + 1) n).dropWhile isDigitOrBar = '.' :: lastDigits (places + 1) n := by
    rw [Decimal.pointed_succ, List.takeWhile_append_of_pos (isDigitOrBar_of_isDigit hwhole),
      List.dropWhile_append_of_pos (isDigitOrBar_of_isDigit hwhole)]
    exact ⟨List.append_nil _, rfl⟩
  have hfraction : fraction? ('.' :: lastDigits (places + 1) n) =
      some (lastDigits (places + 1) n, []) := by
    have hbar := isDigitOrBar_of_isDigit hfrac
    rw [fraction?, List.takeWhile_eq_self_iff.mpr hbar, grouped?_of_isDigit hne hfrac,
      List.dropWhile_eq_nil_iff.mpr hbar]
    rfl
  rw [decimal?, Numeral.sign_signed_pointed]
  dsimp only
  rw [hsplit.1, hsplit.2, whole?_toDigits]
  dsimp only [Option.bind_eq_bind, Option.bind_some]
  rw [hfraction]
  dsimp only [Option.bind_some]
  rw [hvalue, Decimal.length_lastDigits, exponent?]
  dsimp only [Option.bind_some]
  rw [Int.zero_sub, hfinite]
  rfl

/-- Digits alone are no float. -/
theorem decimal?_toDigits (n : Nat) : decimal? (Nat.toDigits 10 n) = none := by
  have hrun : ∀ c ∈ Nat.toDigits 10 n, c.isDigit := fun _ => Numeral.isDigit_of_mem_toDigits
  have hbar := isDigitOrBar_of_isDigit hrun
  rw [decimal?, sign_toDigits]
  dsimp only
  rw [List.takeWhile_eq_self_iff.mpr hbar, List.dropWhile_eq_nil_iff.mpr hbar, whole?_toDigits]
  rfl

theorem integer?_toDigits {n : Nat} (h : n ≤ Int64.maxValue.toInt) :
    integer? (Nat.toDigits 10 n) = some (n : Int) := by
  have hrun : ∀ c ∈ Nat.toDigits 10 n, c.isDigit := fun _ => Numeral.isDigit_of_mem_toDigits
  have hletter {c d : Char} {tail : List Char} (heq : Nat.toDigits 10 n = c :: d :: tail)
      (hd : d.isDigit = false) : False := by
    have := hrun d (heq ▸ List.mem_cons_of_mem c List.mem_cons_self)
    rw [hd] at this
    nomatch this
  have hmin : Int64.minValue.toInt ≤ 0 := by decide
  have hrange : inRange (n : Int) = some (n : Int) := if_pos ⟨by omega, h⟩
  unfold integer?
  split
  next heq => exact (hletter heq rfl).elim
  next heq => exact (hletter heq rfl).elim
  next heq => exact (hletter heq rfl).elim
  next =>
    rw [sign_toDigits]
    dsimp only
    rw [whole?_toDigits]
    dsimp only [Option.bind_eq_bind, Option.bind_some]
    rw [Nat.ofDigitChars_ten_toDigits]
    exact hrange

/-! ## Numbers at the end of a line -/

theorem isNumeral_pointed (places n : Nat) : IsNumeral (pointed places n) :=
  fun _ => Decimal.mem_pointed

theorem read?_pointed (negative : Bool) (places n : Nat) (rest : List Char)
    (hfinite : (Decimal.toFloat ⟨negative, n, -(places + 1 : Nat)⟩).isInf = false) :
    read? (signed negative (pointed (places + 1) n) ++ '\n' :: rest) =
      some (.float (Decimal.toFloat ⟨negative, n, -(places + 1 : Nat)⟩), '\n' :: rest) := by
  have hnumeral := isNumeral_pointed (places + 1) n
  have hdecimal := decimal?_pointed negative places n hfinite
  obtain ⟨ch, body, hdigits, hdigit⟩ := Decimal.exists_toDigits (n / Nat.pow 10 (places + 1))
  rw [read?_signed negative hnumeral]
  rw [Decimal.pointed_succ, hdigits, List.cons_append] at hnumeral hdecimal ⊢
  rw [ofToken?_signed hdigit hnumeral, hdecimal]
  rfl

theorem read?_toDigits {n : Nat} (h : n ≤ Int64.maxValue.toInt) (rest : List Char) :
    read? (Nat.toDigits 10 n ++ '\n' :: rest) = some (.integer n, '\n' :: rest) := by
  have hnumeral : IsNumeral (Nat.toDigits 10 n) := isNumeral_pointed 0 n
  have hdecimal := decimal?_toDigits n
  have hinteger := integer?_toDigits h
  obtain ⟨ch, body, hdigits, hdigit⟩ := Decimal.exists_toDigits n
  refine (read?_signed false hnumeral rest).trans ?_
  rw [hdigits] at hnumeral hdecimal hinteger ⊢
  have htoken : ofToken? (signed false (ch :: body)) = some (.integer n) := by
    rw [ofToken?_signed hdigit hnumeral]
    change ((decimal? (ch :: body)).map float <|> (integer? (ch :: body)).map integer) = _
    rw [hdecimal, hinteger]
    rfl
  rw [htoken]
  rfl

theorem read?_inf (rest : List Char) :
    read? ('i' :: 'n' :: 'f' :: '\n' :: rest) = some (.float (1 / 0), '\n' :: rest) := by
  rfl

end Scalar

end Toml

end PrinterShadow
