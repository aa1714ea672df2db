import Mathlib.Tactic.Common
import PrinterShadow.Toml.Text

/-!
Strings in TOML read back as what was written, in each of the four forms. In the forms on several
lines the text may hold quotes: the reader sees that the quotes before other text do not close the
string, and up to two quotes before the closing ones belong to the text. Both inductions run over the
text with the number of quotes that stand before it, which are read only when it is known what
follows them.
-/

namespace PrinterShadow

namespace Toml

namespace Text

variable {several : Bool} {c : Char} {escape text rest after : List Char}

/-! ## Escapes -/

/-- What an escape is read as: one letter stands for a character, or four digits give its code. -/
inductive Escapes (c : Char) : List Char → Prop where
  | letter (d : Char) (h : escaped? d = some c) : Escapes c ['\\', d]
  | code (i j k l : Char) (h : Hex.char? [i, j, k, l] = some c) :
    Escapes c ['\\', 'u', i, j, k, l]

theorem hexChar?_fourDigits {n : Nat} (h : n < 0x20 ∨ n = 0x7F) :
    Hex.char? (Hex.fourDigits n) = some (Char.ofNat n) := by
  have hlow : ∀ n < 0x20, Hex.char? (Hex.fourDigits n) = some (Char.ofNat n) := by decide
  rcases h with h | rfl
  · exact hlow n h
  · decide

theorem escapes_of_escape? (h : escape? several c = some escape) : Escapes c escape := by
  unfold escape? at h
  split_ifs at h with hb ht hn hseveral hf hr hslash hcode
  · obtain rfl := Option.some.inj h
    exact .letter 'b' (by rw [hb]; rfl)
  · obtain rfl := Option.some.inj h
    exact .letter 't' (by rw [ht]; rfl)
  · obtain rfl := Option.some.inj h
    exact .letter 'n' (by rw [hn]; rfl)
  · obtain rfl := Option.some.inj h
    exact .letter 'f' (by rw [hf]; rfl)
  · obtain rfl := Option.some.inj h
    exact .letter 'r' (by rw [hr]; rfl)
  · obtain rfl := Option.some.inj h
    exact .letter '\\' (by rw [hslash]; rfl)
  · obtain rfl := Option.some.inj h
    exact .code _ _ _ _ ((hexChar?_fourDigits hcode).trans (congrArg some c.ofNat_toNat))

/-- A character without an escape stands for itself. -/
theorem plain_of_escape? (h : escape? several c = none) :
    c ≠ '\\' ∧ c ≠ '\x0d' ∧ (isPlain c ∨ several ∧ c = '\n') := by
  unfold escape? at h
  split_ifs at h with hb ht hn hseveral hf hr hslash hcode
  · subst hn
    exact ⟨by decide, by decide, .inr ⟨hseveral, rfl⟩⟩
  · refine ⟨hslash, hr, .inl ?_⟩
    simp only [isPlain, Bool.or_eq_true, Bool.and_eq_true, decide_eq_true_eq]
    omega

theorem escapeAll_quote {run : Nat} (h : (if several then 2 else 0) ≤ run) :
    escapeAll several run ('"' :: text) = ['\\', '"'] ++ escapeAll several 0 text := by
  rw [escapeAll, if_pos rfl, if_pos h]
  rfl

theorem escapeAll_quote_of_lt {run : Nat} (h : run < if several then 2 else 0) :
    escapeAll several run ('"' :: text) = '"' :: escapeAll several (run + 1) text := by
  rw [escapeAll, if_pos rfl, if_neg (Nat.not_le_of_lt h)]

theorem escapeAll_escape {run : Nat} (hquote : c ≠ '"') (h : escape? several c = some escape) :
    escapeAll several run (c :: text) = escape ++ escapeAll several 0 text := by
  rw [escapeAll, if_neg hquote, h]

theorem escapeAll_plain {run : Nat} (hquote : c ≠ '"') (h : escape? several c = none) :
    escapeAll several run (c :: text) = c :: escapeAll several 0 text := by
  rw [escapeAll, if_neg hquote, h]

/-! ## Forms on one line -/

theorem basic?_escape (h : Escapes c escape) (rest : List Char) :
    basic? (escape ++ rest) = prepend c (basic? rest) := by
  cases h with
  | letter d h =>
    unfold escaped? at h
    split at h
    all_goals first
      | obtain rfl := Option.some.inj h; simp [basic?, escaped?]
      | nomatch h
  | code i j k l h => simp [basic?, h]

theorem basic?_plain (hquote : c ≠ '"') (hslash : c ≠ '\\') (hplain : isPlain c)
    (rest : List Char) : basic? (c :: rest) = prepend c (basic? rest) := by
  simp [basic?, hslash, hplain]

/-- On one line every quote is escaped. -/
theorem basic?_escapeAll (run : Nat) (text rest : List Char) :
    basic? (escapeAll false run text ++ '"' :: rest) = some (text, rest) := by
  induction text generalizing run with
  | nil => rfl
  | cons c text ih =>
    by_cases hquote : c = '"'
    · rw [hquote, escapeAll_quote (Nat.zero_le run), List.append_assoc,
        basic?_escape (.letter '"' rfl), ih]
      rfl
    · cases hescape : escape? false c with
      | some escape =>
        rw [escapeAll_escape hquote hescape, List.append_assoc,
          basic?_escape (escapes_of_escape? hescape), ih]
        rfl
      | none =>
        obtain ⟨hslash, -, hplain⟩ := plain_of_escape? hescape
        rw [escapeAll_plain hquote hescape, List.cons_append,
          basic?_plain hquote hslash (hplain.resolve_right nofun), ih]
        rfl

theorem literal?_append (htext : ∀ c ∈ text, c ≠ '\'' ∧ isPlain c) (rest : List Char) :
    literal? (text ++ '\'' :: rest) = some (text, rest) := by
  induction text with
  | nil => rfl
  | cons c text ih =>
    obtain ⟨⟨hquote, hplain⟩, htext⟩ := List.forall_mem_cons.mp htext
    rw [List.cons_append, literal?, if_pos hplain, ih htext]
    · rfl
    · exact hquote

/-! ## Forms on several lines -/

/-- Text before what is read next. -/
def prependAll (front : List Char) (read : Option (List Char × List Char)) :
    Option (List Char × List Char) :=
  read.map fun (text, rest) => (front ++ text, rest)

/-- Quotes before other text are read as they are, if fewer than three. -/
theorem read_replicate {read : List Char → Option (List Char × List Char)} {quote : Char}
    (hread : ∀ tail, tail.take 2 ≠ [quote, quote] → read (quote :: tail) = prepend quote (read tail))
    {run : Nat} (hrun : run ≤ 2) {tail : List Char} (htail : tail.head? ≠ some quote) :
    read (List.replicate run quote ++ tail) = prependAll (List.replicate run quote) (read tail) := by
  have hone : tail.take 2 ≠ [quote, quote] := by
    intro htake
    have hhead := congrArg List.head? htake
    rw [List.head?_take, if_neg (by decide)] at hhead
    exact htail hhead
  have htwo : (quote :: tail).take 2 ≠ [quote, quote] := by
    intro htake
    have htake : tail.take 1 = [quote] := (List.cons.inj htake).2
    have hhead := congrArg List.head? htake
    rw [List.head?_take, if_neg (by decide)] at hhead
    exact htail hhead
  obtain rfl | rfl | rfl : run = 0 ∨ run = 1 ∨ run = 2 := by omega
  · simp [prependAll]
  · simp [hread tail hone, prependAll, prepend]
  · simp [hread _ htwo, hread tail hone, prependAll, prepend, Function.comp_def]

theorem multiBasic?_escape (h : Escapes c escape) (rest : List Char) :
    multiBasic? false (escape ++ rest) = prepend c (multiBasic? false rest) := by
  cases h with
  | letter d h =>
    unfold escaped? at h
    split at h
    all_goals first
      | obtain rfl := Option.some.inj h
        simp [multiBasic?, escaped?, endsLine, isBlank, afterLineEnd?]
      | nomatch h
  | code i j k l h => simp [multiBasic?, h, endsLine, isBlank, afterLineEnd?]

theorem multiBasic?_plain (hquote : c = '"' → rest.take 2 ≠ ['"', '"']) (hslash : c ≠ '\\')
    (hreturn : c ≠ '\x0d') (hplain : isPlain c ∨ c = '\n') :
    multiBasic? false (c :: rest) = prepend c (multiBasic? false rest) := by
  rw [multiBasic?]
  · simp [hplain]
  · rintro tail hc rfl
    exact hquote hc rfl
  · exact hslash
  · exact fun _ hc _ => hreturn hc

theorem closing_of_ne {quote : Char} (h : c ≠ quote) (rest : List Char) :
    closing quote (c :: rest) = ([], c :: rest) := by
  cases rest with
  | nil => rw [closing, if_neg h]
  | cons d rest => rw [closing, if_neg h]

theorem multiBasic?_escapeAll {run : Nat} (hrun : run ≤ 2) (text rest : List Char) :
    multiBasic? false
        (List.replicate run '"' ++ (escapeAll true run text ++ '"' :: '"' :: '"' :: '\n' :: rest)) =
      some (List.replicate run '"' ++ text, '\n' :: rest) := by
  have hread (tail : List Char) (htail : tail.take 2 ≠ ['"', '"']) :
      multiBasic? false ('"' :: tail) = prepend '"' (multiBasic? false tail) :=
    multiBasic?_plain (fun _ => htail) (by decide) (by decide) (.inl rfl)
  induction text generalizing run with
  | nil =>
    have hclosing : closing '"' ('\n' :: rest) = ([], '\n' :: rest) :=
      closing_of_ne (by decide) rest
    obtain rfl | rfl | rfl : run = 0 ∨ run = 1 ∨ run = 2 := by omega
    · simp [escapeAll, multiBasic?, hclosing]
    · simp [escapeAll, multiBasic?, closing]
    · simp [escapeAll, multiBasic?, closing]
  | cons c text ih =>
    have hrest := ih (Nat.zero_le 2)
    rw [List.replicate_zero, List.nil_append] at hrest
    by_cases hquote : c = '"'
    · subst hquote
      rcases Nat.lt_or_ge run 2 with hlt | hge
      · rw [escapeAll_quote_of_lt hlt, List.cons_append, List.append_cons, ← List.replicate_succ',
          ih hlt, List.replicate_succ', List.append_assoc]
        rfl
      · rw [escapeAll_quote hge, List.append_assoc, read_replicate hread hrun (by simp),
          multiBasic?_escape (.letter '"' rfl), hrest]
        rfl
    · cases hescape : escape? true c with
      | some escape =>
        have hescapes := escapes_of_escape? hescape
        rw [escapeAll_escape hquote hescape, List.append_assoc,
          read_replicate hread hrun (by cases hescapes <;> simp), multiBasic?_escape hescapes, hrest]
        rfl
      | none =>
        obtain ⟨hslash, hreturn, hplain⟩ := plain_of_escape? hescape
        rw [escapeAll_plain hquote hescape, List.cons_append,
          read_replicate hread hrun (by simpa using hquote),
          multiBasic?_plain (fun h => absurd h hquote) hslash hreturn (hplain.imp_right And.right),
          hrest]
        rfl

theorem multiLiteral?_plain (hquote : c = '\'' → rest.take 2 ≠ ['\'', '\''])
    (hreturn : c ≠ '\x0d') (hplain : isPlain c ∨ c = '\n') :
    multiLiteral? (c :: rest) = prepend c (multiLiteral? rest) := by
  rw [multiLiteral?]
  · simp [hplain]
  · rintro tail hc rfl
    exact hquote hc rfl
  · exact fun _ hc _ => hreturn hc

theorem le_longestRun (c : Char) (run : Nat) (text : List Char) : run ≤ longestRun c run text := by
  induction text generalizing run with
  | nil => exact Nat.le_refl run
  | cons d text ih =>
    rw [longestRun]
    split_ifs with heq
    · exact Nat.le_of_succ_le (ih (run + 1))
    · exact Nat.le_max_left _ _

theorem multiLiteral?_append {run : Nat} (hrun : longestRun '\'' run text ≤ 2)
    (htext : ∀ c ∈ text, c ≠ '\x0d' ∧ (isPlain c ∨ c = '\n')) (rest : List Char) :
    multiLiteral? (List.replicate run '\'' ++ (text ++ '\'' :: '\'' :: '\'' :: '\n' :: rest)) =
      some (List.replicate run '\'' ++ text, '\n' :: rest) := by
  have hread (tail : List Char) (htail : tail.take 2 ≠ ['\'', '\'']) :
      multiLiteral? ('\'' :: tail) = prepend '\'' (multiLiteral? tail) :=
    multiLiteral?_plain (fun _ => htail) (by decide) (.inl rfl)
  induction text generalizing run with
  | nil =>
    have hclosing : closing '\'' ('\n' :: rest) = ([], '\n' :: rest) :=
      closing_of_ne (by decide) rest
    have hle : run ≤ 2 := hrun
    obtain rfl | rfl | rfl : run = 0 ∨ run = 1 ∨ run = 2 := by omega
    · simp [multiLiteral?, hclosing]
    · simp [multiLiteral?, closing]
    · simp [multiLiteral?, closing]
  | cons c text ih =>
    obtain ⟨⟨hreturn, hplain⟩, htail⟩ := List.forall_mem_cons.mp htext
    rw [longestRun] at hrun
    split_ifs at hrun with hquote
    · subst hquote
      rw [List.cons_append, List.append_cons, ← List.replicate_succ', ih hrun htail,
        List.replicate_succ', List.append_assoc]
      rfl
    · have hrest := ih (Nat.max_le.mp hrun).2 htail
      rw [List.replicate_zero, List.nil_append] at hrest
      rw [List.cons_append, read_replicate hread (Nat.max_le.mp hrun).1 (by simpa using hquote),
        multiLiteral?_plain (fun h => absurd h hquote) hreturn hplain, hrest]
      rfl

/-! ## The form that is chosen -/

theorem holds_of_choose (text : List Char) :
    match Form.choose text with
    | .basic | .multiBasic => True
    | .literal => text.any needsEscape = false ∧ '\n' ∉ text ∧ longestRun '\'' 0 text = 0
    | .multiLiteral => text.any needsEscape = false ∧ longestRun '\'' 0 text ≤ 2 := by
  unfold Form.choose
  extract_lets controls backslash lines double quote
  split_ifs with h₁ h₂ h₃ h₄ h₅
  · trivial
  · simpa [controls, lines, quote, and_assoc] using h₂
  · trivial
  · simpa [controls, quote] using h₄
  · trivial
  · trivial

theorem plain_of_needsEscape (h : needsEscape c = false) :
    c ≠ '\x0d' ∧ (isPlain c ∨ c = '\n') := by
  simp only [needsEscape, Bool.and_eq_false_iff, Bool.or_eq_false_iff, decide_eq_false_iff_not,
    Decidable.not_not] at h
  rcases h with (rfl | rfl) | ⟨hlow, hdelete⟩
  · decide
  · decide
  · refine ⟨fun h => hlow (h ▸ by decide), .inl ?_⟩
    simp only [isPlain, Bool.or_eq_true, Bool.and_eq_true, decide_eq_true_eq]
    omega

theorem not_mem_of_longestRun {run : Nat} (h : longestRun c run text = 0) : c ∉ text := by
  induction text generalizing run with
  | nil => exact List.not_mem_nil
  | cons d text ih =>
    rw [longestRun] at h
    split_ifs at h with heq
    · have hle := le_longestRun c (run + 1) text
      omega
    · rw [List.mem_cons, not_or]
      exact ⟨fun h => heq h.symm, ih (Nat.max_eq_zero_iff.mp h).2⟩

theorem dropLineEnd_opening {body : List Char} (hline : '\n' ∉ text → body.head? ≠ some '\n')
    (hreturn : body.head? ≠ some '\x0d') : dropLineEnd (opening text ++ body) = body := by
  unfold opening
  split_ifs with hmem
  · rfl
  · have hend : afterLineEnd? body = none := by
      unfold afterLineEnd?
      split
      · exact absurd rfl (hline (by simpa using hmem))
      · exact absurd rfl hreturn
      · rfl
    rw [List.nil_append, dropLineEnd, hend]
    rfl

theorem read?_of_basic? (h : basic? rest = some (text, '\n' :: after)) :
    read? ('"' :: rest) = some (text, '\n' :: after) := by
  rw [read?]
  · exact h
  · rintro tail heq
    obtain rfl := (List.cons.inj heq).2
    cases h
  · rintro tail ⟨⟩

theorem read?_of_literal? (h : literal? rest = some (text, '\n' :: after)) :
    read? ('\'' :: rest) = some (text, '\n' :: after) := by
  rw [read?]
  · exact h
  · rintro tail ⟨⟩
  · rintro tail heq
    obtain rfl := (List.cons.inj heq).2
    cases h

theorem eq_of_head?_escapeAll {run : Nat} {d : Char}
    (h : (escapeAll several run text ++ '"' :: rest).head? = some d) :
    d = '"' ∨ d = '\\' ∨ d ∈ text ∧ d ≠ '\x0d' := by
  cases text with
  | nil => exact .inl (Option.some.inj h).symm
  | cons c text =>
    by_cases hquote : c = '"'
    · subst hquote
      rcases Nat.lt_or_ge run (if several then 2 else 0) with hlt | hge
      · rw [escapeAll_quote_of_lt hlt] at h
        exact .inl (Option.some.inj h).symm
      · rw [escapeAll_quote hge] at h
        exact .inr (.inl (Option.some.inj h).symm)
    · cases hescape : escape? several c with
      | some escape =>
        rw [escapeAll_escape hquote hescape] at h
        cases escapes_of_escape? hescape <;> exact .inr (.inl (Option.some.inj h).symm)
      | none =>
        rw [escapeAll_plain hquote hescape] at h
        obtain rfl := Option.some.inj h
        exact .inr (.inr ⟨List.mem_cons_self, (plain_of_escape? hescape).2.1⟩)

/-- A string is read back as what was written, where a line ends after it. -/
theorem read?_write (text rest : List Char) :
    read? (write text ++ '\n' :: rest) = some (text, '\n' :: rest) := by
  have hholds := holds_of_choose text
  unfold write
  cases hform : Form.choose text with
  | basic =>
    dsimp only
    rw [List.cons_append, List.cons_append, List.append_assoc]
    exact read?_of_basic? (basic?_escapeAll 0 text _)
  | literal =>
    rw [hform] at hholds
    obtain ⟨hescape, hline, hquote⟩ := hholds
    have htext : ∀ c ∈ text, c ≠ '\'' ∧ isPlain c := by
      intro c hc
      have hplain := (plain_of_needsEscape (eq_false_of_ne_true
        (List.any_eq_false.mp hescape c hc))).2
      exact ⟨fun h => not_mem_of_longestRun hquote (h ▸ hc),
        hplain.resolve_right fun h => hline (h ▸ hc)⟩
    dsimp only
    rw [List.cons_append, List.cons_append, List.append_assoc]
    exact read?_of_literal? (literal?_append htext _)
  | multiBasic =>
    dsimp only
    set body := escapeAll true 0 text ++ '"' :: '"' :: '"' :: '\n' :: rest with hbody
    have hread : multiBasic? false body = some (text, '\n' :: rest) :=
      multiBasic?_escapeAll (Nat.zero_le 2) text rest
    have hdrop : dropLineEnd (opening text ++ body) = body := by
      refine dropLineEnd_opening (fun hline h => ?_) fun h => ?_
      · rcases eq_of_head?_escapeAll h with h | h | ⟨h, -⟩
        · nomatch h
        · nomatch h
        · exact hline h
      · rcases eq_of_head?_escapeAll h with h | h | ⟨-, h⟩
        · nomatch h
        · nomatch h
        · exact h rfl
    have hsplit : ['"', '"', '"'] ++ opening text ++ escapeAll true 0 text ++ ['"', '"', '"'] ++
        '\n' :: rest = '"' :: '"' :: '"' :: (opening text ++ body) := by
      simp [hbody]
    rw [hsplit, read?, hdrop, hread]
  | multiLiteral =>
    rw [hform] at hholds
    obtain ⟨hescape, hquote⟩ := hholds
    have htext : ∀ c ∈ text, c ≠ '\x0d' ∧ (isPlain c ∨ c = '\n') := fun c hc =>
      plain_of_needsEscape (eq_false_of_ne_true (List.any_eq_false.mp hescape c hc))
    dsimp only
    set body := text ++ '\'' :: '\'' :: '\'' :: '\n' :: rest with hbody
    have hread : multiLiteral? body = some (text, '\n' :: rest) :=
      multiLiteral?_append hquote htext rest
    have hhead {c : Char} (hc : c ≠ '\'') (hmem : c ∉ text) : body.head? ≠ some c := by
      rw [hbody]
      cases text with
      | nil => simpa using hc.symm
      | cons d text => simpa using fun h : d = c => hmem (h ▸ List.mem_cons_self)
    have hdrop : dropLineEnd (opening text ++ body) = body :=
      dropLineEnd_opening (hhead (by decide)) (hhead (by decide) fun h => (htext _ h).1 rfl)
    have hsplit : ['\'', '\'', '\''] ++ opening text ++ text ++ ['\'', '\'', '\''] ++
        '\n' :: rest = '\'' :: '\'' :: '\'' :: (opening text ++ body) := by
      simp [hbody]
    rw [hsplit, read?, hdrop, hread]

end Text

end Toml

end PrinterShadow
