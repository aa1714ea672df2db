import Mathlib
import PrinterShadow.Tracker.Receiving

/-!
What a status line means. A line is read through the first values of the keys that are recognised
and through nothing else, so two lines that agree on these are followed alike. That is so of lines
whose fields are the same but for their order, for fields without a recognised key, for keys that
occur again, and for the line ends that they close with.
-/

namespace PrinterShadow

namespace Status

/-! ## The recognised keys -/

/-- The keys that are recognised, those with the number of an extruder apart. -/
def plainKeys : List String :=
  ["FIRMWARE_NAME", "FIRMWARE_URL", "PROTOCOL_VERSION", "MACHINE_TYPE", "EXTRUDER_COUNT",
    "X", "Y", "Z", "E", "T", "@", "B", "SpeedMultiply", "FlowMultiply", "TargetExtr0",
    "TargetExtr1", "TargetBed", "Fanspeed", "REPETIER_PROTOCOL"]

def Recognised (key : String) : Prop :=
  key ∈ plainKeys ∨ ∃ n, key = temperatureKey n ∨ key = outputKey n

theorem not_recognised_of_head? {key : String} (hplain : key ∉ plainKeys)
    (htemperature : key.toList.head? ≠ some 'T') (houtput : key.toList.head? ≠ some '@') :
    ¬ Recognised key := by
  have hhead (c : Char) (n : Nat) : (String.singleton c ++ n.repr).toList.head? = some c := by
    simp
  rintro (h | ⟨n, rfl | rfl⟩)
  · exact hplain h
  · exact htemperature (hhead 'T' n)
  · exact houtput (hhead '@' n)

/-- The first value of every recognised key is the same, or there is none. -/
def Agree (ts ts' : List Token) : Prop :=
  ∀ key, Recognised key → value? key ts = value? key ts'

/-- The first values of the recognised keys are the same as far as the keys have no number from `k`
on, and the extruder with the number `k` is missing. -/
structure AgreeBelow (k : Nat) (ts ts' : List Token) : Prop where
  plain : ∀ key ∈ plainKeys, value? key ts = value? key ts'
  temperature : ∀ n < k, value? (temperatureKey n) ts = value? (temperatureKey n) ts'
  output : ∀ n < k, value? (outputKey n) ts = value? (outputKey n) ts'
  missing : hasKey (temperatureKey k) ts = false
  missing' : hasKey (temperatureKey k) ts' = false

section Keys

variable {ts ts' : List Token} {key : String} {k : Nat}

theorem temperatureKey_injective : Function.Injective temperatureKey := by
  intro m n h
  have happend : "T" ++ m.repr = "T" ++ n.repr := h
  exact Nat.repr_injective ((String.append_right_inj "T").mp happend)

theorem hasKey_iff : hasKey key ts ↔ key ∈ ts.map Token.key := by
  simp [hasKey, value?]

/-- Some extruder is missing, for there are no more of them than tokens. -/
theorem exists_hasKey_eq_false (ts : List Token) :
    ∃ n, n ≤ ts.length ∧ hasKey (temperatureKey n) ts = false := by
  by_contra! hall
  have hsubset : (List.range (ts.length + 1)).map temperatureKey ⊆ ts.map Token.key := by
    intro key hkey
    obtain ⟨n, hn, rfl⟩ := List.mem_map.mp hkey
    exact hasKey_iff.mp (by simpa using hall n (Nat.lt_succ_iff.mp (List.mem_range.mp hn)))
  have hnodup := (List.nodup_range (n := ts.length + 1)).map temperatureKey_injective
  have hlength := hnodup.length_le_of_subset hsubset
  rw [List.length_map, List.length_range, List.length_map] at hlength
  exact Nat.not_succ_le_self _ hlength

theorem takeWhile_range {p : Nat → Bool} {k n : Nat} (hkn : k ≤ n) (hbelow : ∀ i < k, p i = true)
    (hk : p k = false) : (List.range n).takeWhile p = List.range k := by
  obtain ⟨m, rfl⟩ := Nat.exists_eq_add_of_le hkn
  rw [List.range_add, List.takeWhile_append_of_pos fun i hi => hbelow i (List.mem_range.mp hi)]
  cases m with
  | zero => simp
  | succ m => simp [List.range_succ_eq_map, hk]

/-- There is a first number that is missing, and it is no larger than the number of tokens. -/
theorem exists_firstMissing (ts : List Token) :
    ∃ k ≤ ts.length, hasKey (temperatureKey k) ts = false ∧
      ∀ n < k, hasKey (temperatureKey n) ts := by
  obtain ⟨n, hn, hfalse⟩ := exists_hasKey_eq_false ts
  have hmissing : ∃ n, hasKey (temperatureKey n) ts = false := ⟨n, hfalse⟩
  refine ⟨Nat.find hmissing, (Nat.find_min' hmissing hfalse).trans hn, Nat.find_spec hmissing,
    fun m hm => ?_⟩
  exact Bool.eq_true_of_not_eq_false (Nat.find_min hmissing hm)

/-- The extruders that are reported by number are those below the first that is missing. -/
theorem extruderNumbers_eq (hmissing : hasKey (temperatureKey k) ts = false)
    (hbelow : ∀ n < k, hasKey (temperatureKey n) ts) : extruderNumbers ts = List.range k := by
  obtain ⟨n, hn, hfalse⟩ := exists_hasKey_eq_false ts
  have hkn : k ≤ n := Nat.not_lt.mp fun hlt => by simp [hbelow n hlt] at hfalse
  exact takeWhile_range (hkn.trans hn) hbelow hmissing

/-- A report tells what the recognised keys do, those with a number as far as it is below the first
that is missing. -/
theorem AgreeBelow.ofTokens (h : AgreeBelow k ts ts')
    (hbelow : ∀ n < k, hasKey (temperatureKey n) ts) :
    Report.ofTokens ts = Report.ofTokens ts' := by
  have hbelow' : ∀ n < k, hasKey (temperatureKey n) ts' := fun n hn => by
    rw [hasKey, ← h.temperature n hn]
    exact hbelow n hn
  have hextruders : (Report.ofTokens ts).extruders = (Report.ofTokens ts').extruders := by
    simp only [Report.ofTokens, extruderNumbers_eq h.missing hbelow,
      extruderNumbers_eq h.missing' hbelow']
    refine List.map_congr_left fun n hn => ?_
    rw [List.mem_range] at hn
    simp only [integer?, number?, h.temperature n hn, h.output n hn]
  have hplain := h.plain
  have haxis (a : Cartesian) : value? (axisKey a) ts = value? (axisKey a) ts' :=
    hplain _ (by cases a <;> decide)
  simp only [plainKeys, List.forall_mem_cons] at hplain
  simp only [Report.ofTokens, Introduction.ofTokens?, integer?, number?, hplain, haxis]
    at hextruders ⊢
  rw [hextruders]

theorem Agree.below (h : Agree ts ts') (hmissing : hasKey (temperatureKey k) ts = false) :
    AgreeBelow k ts ts' where
  plain key hkey := h key (.inl hkey)
  temperature n _ := h _ (.inr ⟨n, .inl rfl⟩)
  output n _ := h _ (.inr ⟨n, .inr rfl⟩)
  missing := hmissing
  missing' := by rwa [hasKey, ← h _ (.inr ⟨k, .inl rfl⟩)]

/-- A report tells what the recognised keys do. -/
theorem Agree.ofTokens (h : Agree ts ts') : Report.ofTokens ts = Report.ofTokens ts' := by
  obtain ⟨k, -, hmissing, hbelow⟩ := exists_firstMissing ts
  exact (h.below hmissing).ofTokens hbelow

end Keys

/-! ## Fields -/

/-- Fields that mean the same: in another order where no key occurs twice, with a field more that
has no recognised key, or with a field more whose key occurs before it. -/
inductive Rearranged : List (List Char) → List (List Char) → Prop where
  | refl (fields : List (List Char)) : Rearranged fields fields
  | symm {fields fields' : List (List Char)} : Rearranged fields fields' → Rearranged fields' fields
  | trans {fields fields' fields'' : List (List Char)} :
      Rearranged fields fields' → Rearranged fields' fields'' → Rearranged fields fields''
  | permute {fields fields' : List (List Char)} (hperm : fields.Perm fields')
      (hdistinct : ((fields.filterMap Token.ofField?).map Token.key).Nodup) :
      Rearranged fields fields'
  | insert (before after : List (List Char)) {field : List Char}
      (hfield : ∀ t ∈ Token.ofField? field, ¬ Recognised t.key) :
      Rearranged (before ++ after) (before ++ field :: after)
  | again (before after : List (List Char)) {field : List Char} {t : Token}
      (hfield : Token.ofField? field = some t)
      (hbefore : t.key ∈ (before.filterMap Token.ofField?).map Token.key) :
      Rearranged (before ++ after) (before ++ field :: after)

section Fields

variable {ts ts' : List Token} {key value : String} {t : Token}

theorem value?_cons_of_eq (h : t.key = key) (ts : List Token) :
    value? key (t :: ts) = some t.value := by
  simp [value?, h]

theorem value?_cons_of_ne (h : t.key ≠ key) (ts : List Token) :
    value? key (t :: ts) = value? key ts := by
  simp [value?, h]

/-- Where no key occurs twice, the order of the tokens does not matter to the values. -/
theorem value?_of_perm (hperm : ts.Perm ts') (hdistinct : (ts.map Token.key).Nodup)
    (key : String) : value? key ts = value? key ts' := by
  induction hperm with
  | nil => rfl
  | @cons t ts ts' _ ih =>
    by_cases heq : t.key = key
    · rw [value?_cons_of_eq heq, value?_cons_of_eq heq]
    · rw [value?_cons_of_ne heq, value?_cons_of_ne heq, ih (List.nodup_cons.mp hdistinct).2]
  | swap t t' ts =>
    have hne : t'.key ≠ t.key := by
      simp only [List.map_cons, List.nodup_cons, List.mem_cons, not_or] at hdistinct
      exact hdistinct.1.1
    by_cases heq : t.key = key
    · rw [value?_cons_of_ne (heq ▸ hne), value?_cons_of_eq heq, value?_cons_of_eq heq]
    · rw [value?_cons_of_ne heq]
      by_cases heq' : t'.key = key
      · rw [value?_cons_of_eq heq', value?_cons_of_eq heq']
      · rw [value?_cons_of_ne heq', value?_cons_of_ne heq', value?_cons_of_ne heq]
  | trans hperm _ ih ih' =>
    exact (ih hdistinct).trans (ih' ((hperm.map Token.key).nodup_iff.mp hdistinct))

theorem value?_append (ts ts' : List Token) (key : String) :
    value? key (ts ++ ts') = (value? key ts).or (value? key ts') := by
  rw [value?, List.find?_append, Option.map_or]
  rfl

/-- Fields that mean the same agree on every recognised key. -/
theorem Rearranged.agree {fields fields' : List (List Char)} (h : Rearranged fields fields') :
    Agree (fields.filterMap Token.ofField?) (fields'.filterMap Token.ofField?) := by
  induction h with
  | refl fields => exact fun _ _ => rfl
  | symm _ ih => exact fun key hkey => (ih key hkey).symm
  | trans _ _ ih ih' => exact fun key hkey => (ih key hkey).trans (ih' key hkey)
  | permute hperm hdistinct => exact fun key _ => value?_of_perm (hperm.filterMap _) hdistinct key
  | @insert before after field hfield =>
    intro key hkey
    rw [List.filterMap_append, List.filterMap_append, value?_append, value?_append]
    cases ht : Token.ofField? field with
    | none => rw [List.filterMap_cons_none ht]
    | some t =>
      rw [List.filterMap_cons_some ht, value?_cons_of_ne]
      rintro rfl
      exact hfield t ht hkey
  | @again before after field t hfield hbefore =>
    intro key hkey
    rw [List.filterMap_append, List.filterMap_append, value?_append, value?_append,
      List.filterMap_cons_some hfield]
    by_cases heq : t.key = key
    · subst heq
      obtain ⟨value, hvalue⟩ := Option.isSome_iff_exists.mp (hasKey_iff.mpr hbefore)
      rw [hvalue]
      rfl
    · rw [value?_cons_of_ne heq]

end Fields

/-! ## Lines -/

/-- Whether characters are those of one field of a line that has line ends at its end only. -/
def Unbroken (field : List Char) : Prop := ∀ c ∈ field, c ≠ ' ' ∧ isLineEnd c = false

/-- The line that has these fields, with a space between each two, and closes with these line
ends. -/
def text (fields : List (List Char)) (ending : List Char) : String :=
  .ofList ([' '].intercalate fields ++ ending)

section Lines

variable {fields fields' : List (List Char)} {ending ending' : List Char} {xs : List Char}

theorem trimLineEnd_append (hending : ∀ c ∈ ending, isLineEnd c) (xs : List Char) :
    trimLineEnd (xs ++ ending) = trimLineEnd xs := by
  have hreverse : ∀ c ∈ ending.reverse, isLineEnd c := fun c hc =>
    hending c (List.mem_reverse.mp hc)
  rw [trimLineEnd, List.reverse_append, List.dropWhile_append_of_pos hreverse, trimLineEnd]

theorem trimLineEnd_of_forall (h : ∀ c ∈ xs, isLineEnd c = false) : trimLineEnd xs = xs :=
  List.rdropWhile_eq_self_iff.mpr fun hne => by simp [h _ (List.getLast_mem hne)]

theorem mem_intercalate {c : Char} (hc : c ∈ [' '].intercalate fields) :
    c = ' ' ∨ ∃ field ∈ fields, c ∈ field := by
  induction fields with
  | nil => simp [List.intercalate_nil] at hc
  | cons field fields ih =>
    cases fields with
    | nil =>
      rw [List.intercalate_singleton] at hc
      exact .inr ⟨field, List.mem_cons_self, hc⟩
    | cons field' fields =>
      rw [List.intercalate_cons_cons, List.mem_append, List.mem_append, List.mem_singleton] at hc
      rcases hc with (hc | hc) | hc
      · exact .inr ⟨field, List.mem_cons_self, hc⟩
      · exact .inl hc
      · exact (ih hc).imp_right fun ⟨f, hf, hcf⟩ => ⟨f, List.mem_cons_of_mem field hf, hcf⟩

/-- The tokens of a line are those of its fields. -/
theorem tokens_text (hfields : ∀ field ∈ fields, Unbroken field)
    (hending : ∀ c ∈ ending, isLineEnd c) :
    tokens (text fields ending) = fields.filterMap Token.ofField? := by
  have hplain : ∀ c ∈ [' '].intercalate fields, isLineEnd c = false := by
    intro c hc
    rcases mem_intercalate hc with rfl | ⟨field, hfield, hc⟩
    · rfl
    · exact (hfields field hfield c hc).2
  have hspace : ∀ field ∈ fields, ' ' ∉ field := fun field hfield hc =>
    (hfields field hfield ' ' hc).1 rfl
  rw [tokens, text, String.toList_ofList, trimLineEnd_append hending, trimLineEnd_of_forall hplain]
  by_cases hnil : fields = []
  · subst hnil
    rfl
  · rw [List.splitOn_intercalate ' ' hspace hnil]

theorem mem_of_mem_splitOn {field : List Char} (hfield : field ∈ xs.splitOn ' ') :
    ∀ c ∈ field, c ≠ ' ' ∧ c ∈ xs := by
  induction xs generalizing field with
  | nil =>
    rw [List.splitOn_nil, List.mem_singleton] at hfield
    subst hfield
    exact List.forall_mem_nil _
  | cons x xs ih =>
    have hlater {field : List Char} (h : field ∈ xs.splitOn ' ') :
        ∀ c ∈ field, c ≠ ' ' ∧ c ∈ x :: xs :=
      fun c hc => (ih h c hc).imp_right (List.mem_cons_of_mem x)
    rw [List.splitOn_cons_eq_if_modifyHead] at hfield
    split at hfield
    case isTrue =>
      rcases List.mem_cons.mp hfield with rfl | hfield
      · exact List.forall_mem_nil _
      · exact hlater hfield
    case isFalse hx =>
      obtain ⟨head, tail, heq⟩ := List.exists_cons_of_ne_nil (List.splitOn_ne_nil ' ' xs)
      rw [heq, List.modifyHead_cons] at hfield
      rcases List.mem_cons.mp hfield with rfl | hfield
      · refine List.forall_mem_cons.mpr ⟨⟨by simpa using hx, List.mem_cons_self⟩, ?_⟩
        exact hlater (heq ▸ List.mem_cons_self)
      · exact hlater (heq ▸ List.mem_cons_of_mem head hfield)

/-- A line with line ends at its end only has fields. -/
theorem exists_eq_text {line : String} (h : ∀ c ∈ trimLineEnd line.toList, isLineEnd c = false) :
    ∃ fields ending, (∀ field ∈ fields, Unbroken field) ∧ (∀ c ∈ ending, isLineEnd c) ∧
      line = text fields ending := by
  refine ⟨(trimLineEnd line.toList).splitOn ' ', line.toList.rtakeWhile isLineEnd,
    fun field hfield c hc => ?_, fun c hc => List.mem_rtakeWhile_imp hc, ?_⟩
  · exact (mem_of_mem_splitOn hfield c hc).imp_right (h c)
  · rw [text, List.intercalate_splitOn]
    exact (String.ofList_toList.symm.trans
      (congrArg String.ofList List.rdropWhile_append_rtakeWhile.symm))

end Lines

end Status

namespace Tracker

open Status

theorem receive_of_agree {line line' : String} (h : Agree (tokens line) (tokens line'))
    (t : Tracker) : t.receive line = t.receive line' := by
  unfold receive
  rw [h.ofTokens]

/-- Lines that agree on the recognised keys are followed alike and told to be the same. So are lines
whose fields mean the same, whatever line ends they close with, and every line that has line ends
at its end only is one of fields. -/
theorem receive_reads_recognised (t : Tracker) :
    (∀ line line', Agree (tokens line) (tokens line') → t.receive line = t.receive line') ∧
    (∀ fields fields' ending ending', Rearranged fields fields' →
      (∀ field ∈ fields, Unbroken field) → (∀ field ∈ fields', Unbroken field) →
        (∀ c ∈ ending, isLineEnd c) → (∀ c ∈ ending', isLineEnd c) →
          t.receive (text fields ending) = t.receive (text fields' ending')) ∧
    ∀ line : String, (∀ c ∈ trimLineEnd line.toList, isLineEnd c = false) →
      ∃ fields ending, (∀ field ∈ fields, Unbroken field) ∧ (∀ c ∈ ending, isLineEnd c) ∧
        line = text fields ending := by
  refine ⟨fun line line' h => receive_of_agree h t, ?_, fun line h => exists_eq_text h⟩
  intro fields fields' ending ending' hsame hfields hfields' hending hending'
  refine receive_of_agree ?_ t
  rw [tokens_text hfields hending, tokens_text hfields' hending']
  exact hsame.agree

/-- A line in another order, with a key that is not recognised and a second temperature that is not
read, and closed with another line end. -/
theorem receive_of_shuffled :
    (start {} 0).receive "ok T:21 @:4 B:60\x0d\n" =
      (start {} 0).receive "B:60 wait:1 T:21 ok @:4 T:99\n" := by
  have hpermute : Rearranged
      ["ok".toList, "T:21".toList, "@:4".toList, "B:60".toList]
      ["B:60".toList, "T:21".toList, "ok".toList, "@:4".toList] :=
    .permute (by decide +kernel) (by decide +kernel)
  have hwait : Token.ofField? "wait:1".toList = some ⟨"wait", "1"⟩ := by decide +kernel
  have hinsert : Rearranged
      ["B:60".toList, "T:21".toList, "ok".toList, "@:4".toList]
      ["B:60".toList, "wait:1".toList, "T:21".toList, "ok".toList, "@:4".toList] := by
    refine .insert ["B:60".toList] _ fun t ht => ?_
    obtain rfl := Option.some.inj (hwait.symm.trans ht)
    exact not_recognised_of_head? (by decide) (by decide) (by decide)
  have hagain : Rearranged
      ["B:60".toList, "wait:1".toList, "T:21".toList, "ok".toList, "@:4".toList]
      ["B:60".toList, "wait:1".toList, "T:21".toList, "ok".toList, "@:4".toList, "T:99".toList] :=
    .again ["B:60".toList, "wait:1".toList, "T:21".toList, "ok".toList, "@:4".toList] []
      (t := ⟨"T", "99"⟩) (by decide +kernel) (by decide +kernel)
  obtain ⟨-, hsame, -⟩ := receive_reads_recognised (start {} 0)
  have hline := hsame _ _ ['\x0d', '\n'] ['\n'] (hpermute.trans (hinsert.trans hagain))
    (by simp [Unbroken, isLineEnd]) (by simp [Unbroken, isLineEnd]) (by simp [isLineEnd])
    (by simp [isLineEnd])
  have hfirst : text ["ok".toList, "T:21".toList, "@:4".toList, "B:60".toList] ['\x0d', '\n'] =
      "ok T:21 @:4 B:60\x0d\n" := by decide +kernel
  have hsecond : text ["B:60".toList, "wait:1".toList, "T:21".toList, "ok".toList, "@:4".toList,
      "T:99".toList] ['\n'] = "B:60 wait:1 T:21 ok @:4 T:99\n" := by decide +kernel
  rw [hfirst, hsecond] at hline
  exact hline

end Tracker

end PrinterShadow
