import PrinterShadow.Proofs.StatusLine

/-!
The grammar of a status line. A line is one list of fields with a space between each two, followed
by line ends; a field is a token, or it has no key and is none. Reading a line gives back its
tokens, so it inverts the writing of fields, and the value of a key is found behind the first place
where the key stands: at the start of the line or after a space, and before a colon.
-/

namespace PrinterShadow

namespace Status

/-! ## Fields -/

/-- What a key can be. -/
structure IsKey (key : List Char) : Prop where
  ne_nil : key ≠ []
  space_notMem : ' ' ∉ key
  colon_notMem : ':' ∉ key

/-- A field of a line: a token, or what is none because nothing comes before a colon. -/
inductive Field where
  | token (key value : List Char) (isKey : IsKey key) (space_notMem : ' ' ∉ value)
  | keyless (chars : List Char) (space_notMem : ' ' ∉ chars)
      (colon : ':' ∉ chars ∨ chars.head? = some ':')

theorem Token.ofField?_append {key : List Char} (hne : key ≠ []) (hcolon : ':' ∉ key)
    (value : List Char) :
    ofField? (key ++ ':' :: value) = some ⟨.ofList key, .ofList value⟩ := by
  have hplain : ∀ c ∈ key, decide (c ≠ ':') := fun c hc =>
    decide_eq_true (ne_of_mem_of_not_mem hc hcolon)
  rw [ofField?, List.span_eq_takeWhile_dropWhile, List.takeWhile_append_of_pos hplain,
    List.dropWhile_append_of_pos hplain, List.takeWhile_cons_of_neg (by simp),
    List.dropWhile_cons_of_neg (by simp), List.append_nil]
  exact if_neg hne

namespace Field

def chars : Field → List Char
  | .token key value _ _ => key ++ ':' :: value
  | .keyless chars _ _ => chars

def token? : Field → Option Token
  | .token key value _ _ => some ⟨.ofList key, .ofList value⟩
  | .keyless _ _ _ => none

theorem ofField?_chars (f : Field) : Token.ofField? f.chars = f.token? := by
  cases f with
  | token key value hkey _ => exact Token.ofField?_append hkey.ne_nil hkey.colon_notMem value
  | keyless chars _ hcolon =>
    change Token.ofField? chars = none
    unfold Token.ofField?
    rw [List.span_eq_takeWhile_dropWhile]
    rcases hcolon with hcolon | hcolon
    · have hplain : ∀ c ∈ chars, decide (c ≠ ':') := fun c hc =>
        decide_eq_true (ne_of_mem_of_not_mem hc hcolon)
      rw [List.dropWhile_eq_nil_iff.mpr hplain]
    · obtain ⟨rest, rfl⟩ := List.head?_eq_some_iff.mp hcolon
      rfl

theorem space_notMem_chars (f : Field) : ' ' ∉ f.chars := by
  cases f with
  | token key value hkey hvalue => simp [chars, hkey.space_notMem, hvalue]
  | keyless chars hchars _ => exact hchars

theorem chars_injective : Function.Injective chars := by
  intro f g h
  have htoken : f.token? = g.token? := by rw [← ofField?_chars, h, ofField?_chars]
  cases f with
  | token key value _ _ =>
    cases g with
    | token key' value' _ _ =>
      injection htoken with htoken
      injection htoken with hkey hvalue
      obtain rfl := String.ofList_injective hkey
      obtain rfl := String.ofList_injective hvalue
      rfl
    | keyless => nomatch htoken
  | keyless chars _ _ =>
    cases g with
    | token => nomatch htoken
    | keyless chars' _ _ =>
      obtain rfl : chars = chars' := h
      rfl

/-- Characters without a space are those of a field. -/
theorem exists_chars {xs : List Char} (h : ' ' ∉ xs) : ∃ f : Field, f.chars = xs := by
  by_cases hcolon : ':' ∈ xs
  · obtain ⟨key, value, rfl, hkey⟩ := List.eq_append_cons_of_mem hcolon
    rw [List.mem_append, List.mem_cons, not_or, not_or] at h
    by_cases hnil : key = []
    · subst hnil
      exact ⟨.keyless (':' :: value) (by simp [h.2.2]) (.inr rfl), rfl⟩
    · exact ⟨.token key value ⟨hnil, h.1, hkey⟩ h.2.2, rfl⟩
  · exact ⟨.keyless xs h (.inl hcolon), rfl⟩

theorem exists_map_chars {xss : List (List Char)} (h : ∀ xs ∈ xss, ' ' ∉ xs) :
    ∃ fields : List Field, fields.map chars = xss := by
  have hrange : xss ∈ Set.range (List.map chars) := by
    rw [Set.range_list_map]
    exact fun xs hxs => exists_chars (h xs hxs)
  exact hrange

theorem token?_eq_some_iff {f : Field} {key value : List Char} (hkey : IsKey key) :
    f.token? = some ⟨.ofList key, .ofList value⟩ ↔ f.chars = key ++ ':' :: value := by
  constructor
  · intro h
    cases f with
    | token key' value' _ _ =>
      injection h with h
      injection h with hkeys hvalues
      rw [chars, String.ofList_injective hkeys, String.ofList_injective hvalues]
    | keyless => nomatch h
  · intro h
    rw [← ofField?_chars, h, Token.ofField?_append hkey.ne_nil hkey.colon_notMem]

end Field

/-! ## Lines of fields -/

/-- Whether characters do not end with a line end. -/
def EndsPlain (xs : List Char) : Prop := ∀ c ∈ xs.getLast?, isLineEnd c = false

/-- Whether fields are those of a line: there is one at least, and what the last one ends with is
not taken for the end of the line. -/
structure Proper (fields : List Field) : Prop where
  ne_nil : fields ≠ []
  endsPlain : ∀ f ∈ fields.getLast?, EndsPlain f.chars

/-- The characters of fields with a space between each two. -/
def joined (fields : List Field) : List Char := [' '].intercalate (fields.map Field.chars)

section Lines

variable {fields : List Field} {f g : Field} {ending xs ys : List Char}

theorem joined_singleton (f : Field) : joined [f] = f.chars := List.intercalate_singleton

theorem joined_cons_cons (f g : Field) (fields : List Field) :
    joined (f :: g :: fields) = f.chars ++ ' ' :: joined (g :: fields) := by
  simp [joined, List.intercalate_cons_cons]

theorem endsPlain_append_space : EndsPlain (xs ++ ' ' :: ys) ↔ EndsPlain ys := by
  simp only [EndsPlain, List.getLast?_append, List.getLast?_cons, Option.some_or,
    Option.mem_some_iff, forall_eq']
  cases ys.getLast? with
  | none => simp [isLineEnd]
  | some c => simp

theorem EndsPlain.of_append (h : EndsPlain (xs ++ ys)) : EndsPlain ys := by
  intro c hc
  refine h c ?_
  rw [List.getLast?_append, Option.mem_def.mp hc]
  rfl

theorem trimLineEnd_of_endsPlain (h : EndsPlain xs) : trimLineEnd xs = xs := by
  refine List.rdropWhile_eq_self_iff.mpr fun hne => ?_
  simp [h _ (List.getLast?_eq_some_getLast hne)]

theorem endsPlain_trimLineEnd (xs : List Char) : EndsPlain (trimLineEnd xs) := by
  intro c hc
  obtain ⟨hne, rfl⟩ := List.mem_getLast?_eq_getLast hc
  exact Bool.eq_false_of_not_eq_true (List.rdropWhile_last_not isLineEnd xs hne)

/-- A line is what it is without its line ends, and these. -/
theorem exists_ending (xs : List Char) :
    ∃ ending, (∀ c ∈ ending, isLineEnd c) ∧ trimLineEnd xs ++ ending = xs :=
  ⟨xs.rtakeWhile isLineEnd, fun _ => List.mem_rtakeWhile_imp, List.rdropWhile_append_rtakeWhile⟩

theorem trimLineEnd_endsPlain_append (h : EndsPlain xs) (hending : ∀ c ∈ ending, isLineEnd c) :
    trimLineEnd (xs ++ ending) = xs := by
  rw [trimLineEnd_append hending, trimLineEnd_of_endsPlain h]

/-- A line of fields ends as the last of them does. -/
theorem endsPlain_joined_iff (hne : fields ≠ []) :
    EndsPlain (joined fields) ↔ ∀ f ∈ fields.getLast?, EndsPlain f.chars := by
  induction fields with
  | nil => exact absurd rfl hne
  | cons f fields ih =>
    cases fields with
    | nil => simp [joined_singleton]
    | cons g fields =>
      rw [joined_cons_cons, endsPlain_append_space, ih (List.cons_ne_nil g fields),
        List.getLast?_cons_cons]

theorem splitOn_joined (h : Proper fields) : (joined fields).splitOn ' ' = fields.map Field.chars :=
  List.splitOn_intercalate ' '
    (List.forall_mem_map.mpr fun f _ => f.space_notMem_chars) (by simpa using h.ne_nil)

theorem toList_text (fields : List Field) (ending : List Char) :
    (text (fields.map Field.chars) ending).toList = joined fields ++ ending :=
  String.toList_ofList

theorem trimLineEnd_text (h : Proper fields) (hending : ∀ c ∈ ending, isLineEnd c) :
    trimLineEnd (text (fields.map Field.chars) ending).toList = joined fields := by
  rw [toList_text]
  exact trimLineEnd_endsPlain_append ((endsPlain_joined_iff h.ne_nil).mpr h.endsPlain) hending

/-- The tokens of a line are those among its fields. -/
theorem tokens_text_chars (h : Proper fields) (hending : ∀ c ∈ ending, isLineEnd c) :
    tokens (text (fields.map Field.chars) ending) = fields.filterMap Field.token? := by
  rw [tokens, trimLineEnd_text h hending, splitOn_joined h, List.filterMap_map]
  exact List.filterMap_congr fun f _ => f.ofField?_chars

/-- Every line without its line ends is one of fields. -/
theorem exists_proper (hplain : EndsPlain xs) : ∃ fields, Proper fields ∧ joined fields = xs := by
  have hspace : ∀ field ∈ xs.splitOn ' ', ' ' ∉ field := fun field hfield hc =>
    (mem_of_mem_splitOn hfield ' ' hc).1 rfl
  obtain ⟨fields, hfields⟩ := Field.exists_map_chars hspace
  have hjoined : joined fields = xs := by
    rw [joined, hfields, List.intercalate_splitOn]
  have hne : fields ≠ [] := by
    rintro rfl
    exact List.splitOn_ne_nil ' ' xs hfields.symm
  refine ⟨fields, ⟨hne, (endsPlain_joined_iff hne).mp ?_⟩, hjoined⟩
  rwa [hjoined]

/-- A line has exactly one list of fields. -/
theorem existsUnique_fields (line : String) :
    ∃! fields, Proper fields ∧ ∃ ending : List Char, (∀ c ∈ ending, isLineEnd c) ∧
      line = text (fields.map Field.chars) ending := by
  obtain ⟨fields, hproper, hjoined⟩ := exists_proper (endsPlain_trimLineEnd line.toList)
  obtain ⟨ending, hending, hline⟩ := exists_ending line.toList
  refine ⟨fields, ⟨hproper, ending, hending, ?_⟩, ?_⟩
  · rw [← hjoined] at hline
    exact String.ofList_toList.symm.trans (congrArg String.ofList hline.symm)
  · rintro fields' ⟨hproper', ending', hending', rfl⟩
    rw [trimLineEnd_text hproper' hending'] at hjoined
    refine List.map_injective_iff.mpr Field.chars_injective ?_
    rw [← splitOn_joined hproper', ← splitOn_joined hproper, hjoined]

/-- What stands before a space is read as what stands before the line's end. -/
theorem tokens_append_space {l₁ : String} (h : EndsPlain l₁.toList) (l₂ : String) :
    tokens (l₁ ++ " " ++ l₂) = tokens l₁ ++ tokens l₂ := by
  obtain ⟨ending, hending, hline⟩ := exists_ending l₂.toList
  have htrim : trimLineEnd (l₁ ++ " " ++ l₂).toList =
      l₁.toList ++ ' ' :: trimLineEnd l₂.toList := by
    have hchars : (l₁ ++ " " ++ l₂).toList =
        (l₁.toList ++ ' ' :: trimLineEnd l₂.toList) ++ ending := by
      rw [List.append_assoc, List.cons_append, hline, String.toList_append, String.toList_append,
        List.append_assoc]
      rfl
    rw [hchars]
    exact trimLineEnd_endsPlain_append
      (endsPlain_append_space.mpr (endsPlain_trimLineEnd l₂.toList)) hending
  rw [tokens, htrim, List.splitOn_append_cons_self, List.filterMap_append, tokens, tokens,
    trimLineEnd_of_endsPlain h]

end Lines

/-! ## Where a key stands -/

/-- A key stands in a line: what comes before it is nothing or ends with a space, and a colon comes
after it. -/
structure KeyAt (key line before after : List Char) : Prop where
  eq : line = before ++ (key ++ ':' :: after)
  boundary : ∀ c ∈ before.getLast?, c = ' '

/-- No place where the key stands comes before this one. -/
structure FirstKeyAt (key line before after : List Char) : Prop extends
    KeyAt key line before after where
  le : ∀ before' after', KeyAt key line before' after' → before.length ≤ before'.length

section Keys

variable {key line before after value xs ys ending : List Char} {fields : List Field} {f g : Field}

theorem keyAt_start (key after : List Char) : KeyAt key (key ++ ':' :: after) [] after :=
  ⟨rfl, nofun⟩

/-- A space after the first field is met first, or inside what is left. -/
theorem append_space_eq_iff {before' after' : List Char} (hspace : ' ' ∉ before) :
    before ++ ' ' :: after = before' ++ ' ' :: after' ↔
      (before' = before ∧ after' = after) ∨
        ∃ more, before' = before ++ ' ' :: more ∧ after = more ++ ' ' :: after' := by
  constructor
  · intro h
    rcases List.append_eq_append_iff.mp h with ⟨more, rfl, hmore⟩ | ⟨more, rfl, hmore⟩
    · cases more with
      | nil =>
        injection hmore with _ hafter
        exact .inl ⟨List.append_nil _, hafter.symm⟩
      | cons c more =>
        injection hmore with hc hafter
        subst hc
        exact .inr ⟨more, rfl, hafter⟩
    · cases more with
      | nil =>
        injection hmore with _ hafter
        exact .inl ⟨(List.append_nil _).symm, hafter⟩
      | cons c more =>
        injection hmore with hc _
        subst hc
        simp at hspace
  · rintro (⟨rfl, rfl⟩ | ⟨more, rfl, rfl⟩)
    · rfl
    · simp

/-- In one field a key stands at its start only. -/
theorem keyAt_field_iff (hspace : ' ' ∉ xs) :
    KeyAt key xs before after ↔ before = [] ∧ xs = key ++ ':' :: after := by
  constructor
  · rintro ⟨rfl, hboundary⟩
    cases hlast : before.getLast? with
    | none =>
      obtain rfl := List.getLast?_eq_none_iff.mp hlast
      exact ⟨rfl, rfl⟩
    | some c =>
      obtain rfl := hboundary c hlast
      exact absurd (List.mem_append_left _ (List.mem_of_getLast? hlast)) hspace
  · rintro ⟨rfl, rfl⟩
    exact keyAt_start key after

theorem keyAt_append_space_iff (hkey : IsKey key) (hspace : ' ' ∉ xs) :
    KeyAt key (xs ++ ' ' :: ys) before after ↔
      (before = [] ∧ ∃ value, xs = key ++ ':' :: value ∧ after = value ++ ' ' :: ys) ∨
        ∃ before', before = xs ++ ' ' :: before' ∧ KeyAt key ys before' after := by
  constructor
  · rintro ⟨heq, hboundary⟩
    cases hlast : before.getLast? with
    | none =>
      obtain rfl := List.getLast?_eq_none_iff.mp hlast
      have hmem : ' ' ∈ key ++ ':' :: after := by
        rw [← List.nil_append (key ++ ':' :: after), ← heq]
        exact List.mem_append_right xs List.mem_cons_self
      have hafter : ' ' ∈ after := by simpa [hkey.space_notMem] using hmem
      obtain ⟨value, rest, rfl, hvalue⟩ := List.eq_append_cons_of_mem hafter
      have hfield : ' ' ∉ key ++ ':' :: value := by simp [hkey.space_notMem, hvalue]
      have hsplit : (key ++ ':' :: value) ++ ' ' :: rest = xs ++ ' ' :: ys := by simp [heq]
      rcases (append_space_eq_iff hfield).mp hsplit with ⟨rfl, rfl⟩ | ⟨more, rfl, -⟩
      · exact .inl ⟨rfl, value, rfl, rfl⟩
      · simp at hspace
    | some c =>
      obtain rfl := hboundary c hlast
      obtain ⟨init, rfl⟩ := List.getLast?_eq_some_iff.mp hlast
      rw [List.append_assoc, List.singleton_append, append_space_eq_iff hspace] at heq
      refine .inr ?_
      rcases heq with ⟨rfl, rfl⟩ | ⟨more, rfl, rfl⟩
      · exact ⟨[], rfl, rfl, nofun⟩
      · exact ⟨more ++ [' '], by simp, by simp, by simp⟩
  · rintro (⟨rfl, value, rfl, rfl⟩ | ⟨before', rfl, rfl, hboundary⟩)
    · simpa using keyAt_start key (value ++ ' ' :: ys)
    · refine ⟨by simp, fun c hc => ?_⟩
      rw [List.getLast?_append, List.getLast?_cons, Option.some_or, Option.mem_some_iff] at hc
      subst hc
      cases hlast : before'.getLast? with
      | none => rfl
      | some c => exact hboundary c hlast

/-- A key stands in a line where it stands in it without the line ends. -/
theorem keyAt_append_iff (hending : ∀ c ∈ ending, isLineEnd c) :
    KeyAt key (xs ++ ending) before after ↔
      ∃ after', KeyAt key xs before after' ∧ after = after' ++ ending := by
  constructor
  · rintro ⟨heq, hboundary⟩
    have hsplit : xs ++ ending = (before ++ (key ++ [':'])) ++ after := by simp [heq]
    rcases List.append_eq_append_iff.mp hsplit with ⟨more, hmore, rfl⟩ | ⟨more, rfl, rfl⟩
    · -- the colon is no line end, so it is not among them
      have hnil : more = [] := by
        by_contra hne
        obtain ⟨init, c, rfl⟩ := (List.eq_nil_or_concat' more).resolve_left hne
        have hc := congrArg List.getLast? hmore
        obtain rfl : ':' = c := by simpa using hc
        have hcolon := hending ':' (by simp)
        exact nomatch hcolon
      subst hnil
      exact ⟨[], ⟨by simpa using hmore.symm, hboundary⟩, rfl⟩
    · exact ⟨more, ⟨by simp, hboundary⟩, rfl⟩
  · rintro ⟨after', ⟨rfl, hboundary⟩, rfl⟩
    exact ⟨by simp, hboundary⟩

/-! ## The value of a key -/

theorem value?_cons_of_chars_eq (hkey : IsKey key) (h : f.chars = key ++ ':' :: value)
    (fields : List Field) :
    value? (.ofList key) ((f :: fields).filterMap Field.token?) = some (.ofList value) := by
  rw [List.filterMap_cons_some ((Field.token?_eq_some_iff hkey).mpr h)]
  exact value?_cons_of_eq rfl _

theorem value?_cons_of_chars_ne (hkey : IsKey key) (h : ∀ value, f.chars ≠ key ++ ':' :: value)
    (fields : List Field) :
    value? (.ofList key) ((f :: fields).filterMap Field.token?) =
      value? (.ofList key) (fields.filterMap Field.token?) := by
  cases htoken : f.token? with
  | none => rw [List.filterMap_cons_none htoken]
  | some t =>
    rw [List.filterMap_cons_some htoken, value?_cons_of_ne]
    intro heq
    refine h t.value.toList ((Field.token?_eq_some_iff hkey).mp ?_)
    rw [htoken, String.ofList_toList, ← heq]

/-- A key has a value just where it stands somewhere. -/
theorem isSome_value?_iff (hkey : IsKey key) (hne : fields ≠ []) :
    (value? (.ofList key) (fields.filterMap Field.token?)).isSome ↔
      ∃ before after, KeyAt key (joined fields) before after := by
  induction fields with
  | nil => exact absurd rfl hne
  | cons f fields ih =>
    by_cases hf : ∃ value, f.chars = key ++ ':' :: value
    · obtain ⟨value, hvalue⟩ := hf
      rw [value?_cons_of_chars_eq hkey hvalue]
      refine iff_of_true rfl ?_
      cases fields with
      | nil =>
        rw [joined_singleton, hvalue]
        exact ⟨[], value, keyAt_start key value⟩
      | cons g fields =>
        rw [joined_cons_cons, hvalue, List.append_assoc, List.cons_append]
        exact ⟨[], _, keyAt_start key _⟩
    · rw [not_exists] at hf
      rw [value?_cons_of_chars_ne hkey hf]
      cases fields with
      | nil =>
        simp only [joined_singleton, keyAt_field_iff f.space_notMem_chars, hf, and_false,
          exists_false]
        exact iff_of_false (by simp [value?]) id
      | cons g fields =>
        rw [ih (List.cons_ne_nil g fields), joined_cons_cons]
        simp only [keyAt_append_space_iff hkey f.space_notMem_chars, hf, false_and, exists_false,
          and_false, false_or]
        constructor
        · rintro ⟨before, after, h⟩
          exact ⟨_, after, before, rfl, h⟩
        · rintro ⟨-, after, before, -, h⟩
          exact ⟨before, after, h⟩

/-- The value of a key is what comes after the first place where it stands, up to a space. -/
theorem value?_of_first (hkey : IsKey key) (hne : fields ≠ [])
    (h : FirstKeyAt key (joined fields) before after) :
    value? (.ofList key) (fields.filterMap Field.token?) =
      some (.ofList (after.takeWhile (· ≠ ' '))) := by
  induction fields generalizing before with
  | nil => exact absurd rfl hne
  | cons f fields ih =>
    cases fields with
    | nil =>
      rw [joined_singleton] at h
      obtain ⟨-, hchars⟩ := (keyAt_field_iff f.space_notMem_chars).mp h.toKeyAt
      have hspace : ' ' ∉ after := fun hc => f.space_notMem_chars (by simp [hchars, hc])
      rw [value?_cons_of_chars_eq hkey hchars,
        List.takeWhile_eq_self_iff.mpr fun c hc => decide_eq_true (ne_of_mem_of_not_mem hc hspace)]
    | cons g fields =>
      rw [joined_cons_cons] at h
      rcases (keyAt_append_space_iff hkey f.space_notMem_chars).mp h.toKeyAt with
        ⟨-, value, hchars, rfl⟩ | ⟨before, rfl, hlater⟩
      · have hspace : ' ' ∉ value := fun hc => f.space_notMem_chars (by simp [hchars, hc])
        rw [value?_cons_of_chars_eq hkey hchars, List.takeWhile_append_of_pos fun c hc =>
            decide_eq_true (ne_of_mem_of_not_mem hc hspace),
          List.takeWhile_cons_of_neg (by simp), List.append_nil]
      · rw [value?_cons_of_chars_ne hkey fun value hchars => ?_]
        · refine ih (List.cons_ne_nil g fields) ⟨hlater, fun before' after' h' => ?_⟩
          have hle := h.le _ _ ((keyAt_append_space_iff hkey f.space_notMem_chars).mpr
            (.inr ⟨before', rfl, h'⟩))
          simpa using hle
        · -- the field would have the key before the first place
          have hle := h.le [] (value ++ ' ' :: joined (g :: fields))
            ((keyAt_append_space_iff hkey f.space_notMem_chars).mpr
              (.inl ⟨rfl, value, hchars, rfl⟩))
          simp at hle

/-- A key stands first in a line where it does in it without the line ends. -/
theorem FirstKeyAt.trim (hending : ∀ c ∈ ending, isLineEnd c)
    (h : FirstKeyAt key (xs ++ ending) before after) :
    ∃ after', FirstKeyAt key xs before after' ∧ after = after' ++ ending := by
  obtain ⟨after', hat, rfl⟩ := (keyAt_append_iff hending).mp h.toKeyAt
  refine ⟨after', ⟨hat, fun before' after'' h' => ?_⟩, rfl⟩
  exact h.le before' _ ((keyAt_append_iff hending).mpr ⟨after'', h', rfl⟩)

theorem isSome_value?_tokens_iff (hkey : IsKey key) (line : String) :
    (value? (.ofList key) (tokens line)).isSome ↔
      ∃ before after, KeyAt key line.toList before after := by
  obtain ⟨fields, ⟨hproper, ending, hending, rfl⟩, -⟩ := existsUnique_fields line
  rw [tokens_text_chars hproper hending, isSome_value?_iff hkey hproper.ne_nil, toList_text]
  simp only [keyAt_append_iff hending]
  constructor
  · rintro ⟨before, after, h⟩
    exact ⟨before, _, after, h, rfl⟩
  · rintro ⟨before, -, after, h, -⟩
    exact ⟨before, after, h⟩

theorem value?_tokens_of_first (hkey : IsKey key) {line : String}
    (h : FirstKeyAt key line.toList before after) :
    value? (.ofList key) (tokens line) =
      some (.ofList ((trimLineEnd after).takeWhile (· ≠ ' '))) := by
  obtain ⟨fields, ⟨hproper, ending, hending, rfl⟩, -⟩ := existsUnique_fields line
  rw [toList_text] at h
  obtain ⟨after', hfirst, rfl⟩ := h.trim hending
  have hplain : EndsPlain (joined fields) :=
    (endsPlain_joined_iff hproper.ne_nil).mpr hproper.endsPlain
  have hafter : EndsPlain after' := by
    have heq : joined fields = (before ++ (key ++ [':'])) ++ after' := by
      rw [hfirst.eq]
      simp
    rw [heq] at hplain
    exact hplain.of_append
  rw [tokens_text_chars hproper hending, value?_of_first hkey hproper.ne_nil hfirst,
    trimLineEnd_endsPlain_append hafter hending]

end Keys

/-- Reading a line inverts the writing of its fields: the tokens of a line are those among its
fields, and every line has exactly one list of these. So a key has a value just where it stands at
the start of the line or after a space, and before a colon; the value is what comes after the first
such place, up to a space or the line ends. A line after a space is read on its own. -/
theorem tokens_of_grammar :
    (∀ (fields : List Field) (ending : List Char), Proper fields → (∀ c ∈ ending, isLineEnd c) →
        tokens (text (fields.map Field.chars) ending) = fields.filterMap Field.token?) ∧
      (∀ line, ∃! fields, Proper fields ∧ ∃ ending : List Char, (∀ c ∈ ending, isLineEnd c) ∧
        line = text (fields.map Field.chars) ending) ∧
      (∀ line key : String, IsKey key.toList →
        ((value? key (tokens line)).isSome ↔
          ∃ before after, KeyAt key.toList line.toList before after) ∧
        ∀ before after, FirstKeyAt key.toList line.toList before after →
          value? key (tokens line) =
            some (.ofList ((trimLineEnd after).takeWhile (· ≠ ' ')))) ∧
      ∀ l₁ l₂ : String, EndsPlain l₁.toList →
        tokens (l₁ ++ " " ++ l₂) = tokens l₁ ++ tokens l₂ := by
  refine ⟨fun _ _ => tokens_text_chars, existsUnique_fields, fun line key hkey => ?_,
    fun _ l₂ h => tokens_append_space h l₂⟩
  have hpresent := isSome_value?_tokens_iff hkey line
  rw [String.ofList_toList] at hpresent
  refine ⟨hpresent, fun before after h => ?_⟩
  have hvalue := value?_tokens_of_first hkey h
  rwa [String.ofList_toList] at hvalue

/-- A value with a colon, two spaces, a field without a key, a key that occurs again, and two line
ends. -/
theorem tokens_of_repeatedBed :
    tokens "B:5:9  :x B:7\x0d\n" = [⟨"B", "5:9"⟩, ⟨"B", "7"⟩] ∧
      value? "B" (tokens "B:5:9  :x B:7\x0d\n") = some "5:9" ∧
      tokens ("B:5:9" ++ " " ++ "T:2\n") = tokens "B:5:9" ++ tokens "T:2\n" := by
  obtain ⟨hread, -, hvalue, happend⟩ := tokens_of_grammar
  have hkey : IsKey "B".toList := ⟨by decide, by decide, by decide⟩
  let fields : List Field := [.token ['B'] ['5', ':', '9'] hkey (by decide),
    .keyless [] (by decide) (.inl (by decide)), .keyless [':', 'x'] (by decide) (.inr rfl),
    .token ['B'] ['7'] hkey (by decide)]
  have hproper : Proper fields := by
    refine ⟨List.cons_ne_nil _ _, ?_⟩
    rintro _ ⟨⟩ c hc
    obtain rfl : '7' = c := Option.some.inj hc
    rfl
  have hline : text (fields.map Field.chars) ['\x0d', '\n'] = "B:5:9  :x B:7\x0d\n" := rfl
  have htokens := hread fields ['\x0d', '\n'] hproper (by simp [isLineEnd])
  rw [hline] at htokens
  have hfirst : FirstKeyAt "B".toList "B:5:9  :x B:7\x0d\n".toList []
      "5:9  :x B:7\x0d\n".toList :=
    ⟨keyAt_start "B".toList _, fun _ _ _ => Nat.zero_le _⟩
  refine ⟨htokens, (hvalue _ "B" hkey).2 _ _ hfirst, happend _ _ fun c hc => ?_⟩
  obtain rfl : '9' = c := Option.some.inj hc
  rfl

end Status

end PrinterShadow
