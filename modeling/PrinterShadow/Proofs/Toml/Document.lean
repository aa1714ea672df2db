import PrinterShadow.Proofs.Toml.Text
import PrinterShadow.Toml.Document

/-!
Documents read line by line. Where the lines of a text are assignments to plain keys, headers of one
key and empty lines, the text is read as the document with just these, and where no key is given
twice the document describes the entries in the order of its lines.
-/

namespace PrinterShadow

namespace Toml

variable {key value rest : List Char} {item : Item} {d : Document}

/-! ## Keys -/

/-- Whether a key may be written without quotes. -/
def IsBare (key : List Char) : Prop :=
  key ≠ [] ∧ ∀ c ∈ key, isKeyChar c

instance (key : List Char) : Decidable (IsBare key) :=
  decidable_of_iff (key ≠ [] ∧ key.all isKeyChar) (and_congr_right' List.all_eq_true)

theorem keyPart?_of_isBare (hkey : IsBare key) (hrest : ∀ c ∈ rest.head?, isKeyChar c = false) :
    keyPart? (key ++ rest) = some (String.ofList key, rest) := by
  have hstop : rest.takeWhile isKeyChar = [] ∧ rest.dropWhile isKeyChar = rest := by
    cases rest with
    | nil => exact ⟨rfl, rfl⟩
    | cons c rest => simp [hrest c rfl]
  rw [keyPart?, List.takeWhile_append_of_pos hkey.2, List.dropWhile_append_of_pos hkey.2, hstop.1,
    hstop.2, List.append_nil]
  split
  next => exact absurd rfl hkey.1
  next => rfl

theorem skipBlanks_of_head {c : Char} (h : isBlank c = false) (rest : List Char) :
    skipBlanks (c :: rest) = c :: rest := by
  simp [skipBlanks, h]

theorem IsBare.exists_cons (h : IsBare key) :
    ∃ c tail, key = c :: tail ∧ isKeyChar c := by
  obtain ⟨c, tail, rfl⟩ := List.exists_cons_of_ne_nil h.1
  exact ⟨c, tail, rfl, h.2 c List.mem_cons_self⟩

/-- The characters of a bare key differ from those that end it or start another statement. -/
theorem ne_of_isKeyChar {c d : Char} (h : isKeyChar c) (hd : isKeyChar d = false) : c ≠ d := by
  rintro rfl
  rw [h] at hd
  nomatch hd

theorem isBlank_of_isKeyChar {c : Char} (h : isKeyChar c) : isBlank c = false := by
  simp [isBlank, ne_of_isKeyChar h (d := ' ') rfl, ne_of_isKeyChar h (d := '\t') rfl]

theorem path?_of_isBare (parts : Nat) (hkey : IsBare key)
    (hrest : ∀ c ∈ rest.head?, isKeyChar c = false)
    (hpoint : ∀ tail, skipBlanks rest ≠ '.' :: tail) :
    path? (parts + 1) (key ++ rest) = some (⟨[], String.ofList key⟩, skipBlanks rest) := by
  have hskip : skipBlanks (key ++ rest) = key ++ rest := by
    obtain ⟨c, tail, rfl, hc⟩ := hkey.exists_cons
    exact skipBlanks_of_head (isBlank_of_isKeyChar hc) _
  rw [path?, hskip, keyPart?_of_isBare hkey hrest]
  dsimp only [Option.bind_eq_bind, Option.bind_some]
  split
  next heq => exact absurd heq (hpoint _)
  next => rfl

/-! ## Lines -/

/-- Whether a text is read as a value where a line ends after it. -/
structure Writes (item : Item) (value : List Char) : Prop where
  head : ∀ c ∈ value.head?, isBlank c = false
  read : ∀ fuel depth rest,
    value? (fuel + 1) depth (value ++ '\n' :: rest) = some (item, '\n' :: rest)

theorem Writes.skipBlanks (h : Writes item value) (rest : List Char) :
    skipBlanks (value ++ '\n' :: rest) = value ++ '\n' :: rest := by
  cases value with
  | nil => rfl
  | cons c value => exact skipBlanks_of_head (h.head c rfl) _

theorem value?_of_scalar {c : Char} (h : c ∉ ['[', '\x7b', '"', '\'']) (fuel depth : Nat)
    (rest : List Char) : value? (fuel + 1) depth (c :: rest) =
      (Scalar.read? (c :: rest)).map fun (value, rest) => (.scalar value, rest) := by
  rw [value?]
  all_goals simp_all

theorem Text.head?_write (text : List Char) :
    ∃ quote tail, Text.write text = quote :: tail ∧ (quote = '"' ∨ quote = '\'') := by
  unfold Text.write
  split
  · exact ⟨_, _, rfl, .inl rfl⟩
  · exact ⟨_, _, rfl, .inr rfl⟩
  · exact ⟨_, _, rfl, .inl rfl⟩
  · exact ⟨_, _, rfl, .inr rfl⟩

theorem value?_of_text {quote : Char} (h : quote = '"' ∨ quote = '\'') (fuel depth : Nat)
    (rest : List Char) : value? (fuel + 1) depth (quote :: rest) =
      (Text.read? (quote :: rest)).map fun (value, rest) => (.text (String.ofList value), rest) := by
  rcases h with rfl | rfl
  · rw [value?]
  · rw [value?]

theorem writes_text (s : String) : Writes (.text s) (Text.write s.toList) := by
  obtain ⟨quote, tail, hwrite, hquote⟩ := Text.head?_write s.toList
  refine ⟨?_, fun fuel depth rest => ?_⟩
  · rw [hwrite]
    rintro c ⟨⟩
    rcases hquote with rfl | rfl <;> rfl
  · have hread := Text.read?_write s.toList rest
    rw [hwrite, List.cons_append] at hread ⊢
    rw [value?_of_text hquote, hread, Option.map_some]
    simp only [String.ofList_toList]

theorem writes_scalar {scalar : Scalar} {c : Char} (hblank : isBlank c = false)
    (hhead : c ∉ ['[', '\x7b', '"', '\''])
    (hread : ∀ rest, Scalar.read? (c :: value ++ '\n' :: rest) = some (scalar, '\n' :: rest)) :
    Writes (.scalar scalar) (c :: value) := by
  refine ⟨?_, fun fuel depth rest => ?_⟩
  · rintro c ⟨⟩
    exact hblank
  · rw [List.cons_append, value?_of_scalar hhead, ← List.cons_append, hread]
    rfl

/-- The assignment of a value to a key of one part. -/
def Assignment.plain (entry : String × Item) : Assignment :=
  ⟨⟨[], entry.1⟩, entry.2⟩

/-- The table of a key of one part. -/
def Section.plain (table : String × Entries) : Section :=
  ⟨⟨[], table.1⟩, false, table.2.map .plain⟩

/-- A document whose keys have one part and whose headers name tables. -/
def Document.plain (entries : Entries) (tables : List (String × Entries)) : Document :=
  ⟨entries.map .plain, tables.map .plain⟩

theorem assignment?_of_writes (hkey : IsBare key) (h : Writes item value) (rest : List Char) :
    assignment? (key ++ ' ' :: '=' :: ' ' :: (value ++ '\n' :: rest)) =
      some (.plain (String.ofList key, item), rest) := by
  have hpath : path? maxDepth (key ++ ' ' :: '=' :: ' ' :: (value ++ '\n' :: rest)) =
      some (⟨[], String.ofList key⟩, '=' :: ' ' :: (value ++ '\n' :: rest)) :=
    path?_of_isBare 78 hkey (by simp [isKeyChar]) (by simp [skipBlanks, isBlank])
  have hskip : skipBlanks (' ' :: (value ++ '\n' :: rest)) = value ++ '\n' :: rest :=
    h.skipBlanks rest
  simp only [assignment?, hpath, hskip, h.read, Option.bind_eq_bind, Option.bind_some]
  rfl

/-- Whether a text is read as a document, with one step for each of its characters at most. -/
def Reads (text : List Char) (d : Document) : Prop :=
  ∀ fuel, text.length < fuel → document? fuel text = some d

namespace Reads

variable {entries : Entries} {tables : List (String × Entries)}

theorem nil : Reads [] (.plain [] []) := by
  intro fuel hfuel
  obtain ⟨fuel, rfl⟩ := Nat.exists_eq_add_of_lt hfuel
  rfl

theorem step {line : List Char} (extend : Document → Document) (hline : line ≠ [])
    (h : Reads rest d)
    (hstep : ∀ fuel, document? (fuel + 1) (line ++ rest) = (document? fuel rest).map extend) :
    Reads (line ++ rest) (extend d) := by
  intro fuel hfuel
  have hlength : 0 < line.length := List.length_pos_iff.mpr hline
  rw [List.length_append] at hfuel
  obtain ⟨fuel, rfl⟩ : ∃ n, fuel = n + 1 := Nat.exists_eq_succ_of_ne_zero (by omega)
  rw [hstep, h fuel (by omega)]
  rfl

theorem emptyLine (h : Reads rest d) : Reads ('\n' :: rest) d :=
  step id (List.cons_ne_nil '\n' []) h fun fuel => by
    simp [document?, skipBlanks, isBlank]

theorem assignment (h : Reads rest (.plain entries tables)) (hkey : IsBare key)
    (hvalue : Writes item value) :
    Reads (key ++ [' ', '=', ' '] ++ value ++ ['\n'] ++ rest)
      (.plain ((String.ofList key, item) :: entries) tables) := by
  refine step (.consAssignment (.plain (String.ofList key, item))) (by simp) h fun fuel => ?_
  have hsplit : key ++ [' ', '=', ' '] ++ value ++ ['\n'] ++ rest =
      key ++ ' ' :: '=' :: ' ' :: (value ++ '\n' :: rest) := by simp
  have hread := assignment?_of_writes hkey hvalue rest
  rw [hsplit]
  obtain ⟨c, tail, rfl, hc⟩ := hkey.exists_cons
  rw [List.cons_append] at hread ⊢
  rw [document?, skipBlanks_of_head (isBlank_of_isKeyChar hc)]
  split
  next heq => nomatch heq
  next heq => exact absurd (List.cons.inj heq).1 (ne_of_isKeyChar hc rfl)
  next heq => exact absurd (List.cons.inj heq).1 (ne_of_isKeyChar hc rfl)
  next heq => exact absurd (List.cons.inj heq).1 (ne_of_isKeyChar hc rfl)
  next heq => exact absurd (List.cons.inj heq).1 (ne_of_isKeyChar hc rfl)
  next =>
    rw [hread]
    rfl

theorem header (h : Reads rest (.plain entries tables)) (hkey : IsBare key) :
    Reads ('[' :: key ++ [']', '\n'] ++ rest)
      (.plain [] ((String.ofList key, entries) :: tables)) := by
  refine step (.consHeader ⟨[], String.ofList key⟩ false) (by simp) h fun fuel => ?_
  have hpath : path? maxDepth (key ++ ']' :: '\n' :: rest) =
      some (⟨[], String.ofList key⟩, ']' :: '\n' :: rest) :=
    path?_of_isBare 78 hkey (by simp [isKeyChar]) (by simp [skipBlanks, isBlank])
  have hheader : header? (key ++ ']' :: '\n' :: rest) =
      some ((⟨[], String.ofList key⟩, false), rest) := by
    have hfirst : ∀ tail, key ++ ']' :: '\n' :: rest ≠ '[' :: tail := by
      obtain ⟨c, tail, rfl, hc⟩ := hkey.exists_cons
      intro tail' heq
      exact ne_of_isKeyChar hc rfl (List.cons.inj heq).1
    rw [header?]
    · simp only [hpath, Option.bind_eq_bind, Option.bind_some]
      rfl
    · exact hfirst
  have hsplit : '[' :: key ++ [']', '\n'] ++ rest = '[' :: (key ++ ']' :: '\n' :: rest) := by simp
  rw [hsplit, document?, skipBlanks_of_head rfl]
  simp only [hheader, Option.bind_eq_bind, Option.bind_some]

end Reads

theorem parse?_of_reads {text : List Char} (h : Reads text d) (hmark : text.head? ≠ some '\uFEFF') :
    parse? (String.ofList text) = d.entries? := by
  have hskip : skipMark text = text := by
    unfold skipMark
    split
    · exact absurd rfl hmark
    · rfl
  rw [parse?, String.toList_ofList, hskip, h _ (Nat.lt_succ_self _), Option.bind_some]

/-! ## Entries -/

namespace Entries

variable {k : String} {entries : Entries}

theorem lookup_eq_none (h : k ∉ entries.map Prod.fst) : entries.lookup k = none := by
  rw [List.lookup_eq_none_iff]
  intro entry hentry
  rw [bne_iff_ne]
  rintro rfl
  exact h (List.mem_map_of_mem hentry)

theorem set_eq_append (h : k ∉ entries.map Prod.fst) (item : Item) :
    entries.set k item = entries ++ [(k, item)] := by
  induction entries with
  | nil => rfl
  | cons entry entries ih =>
    obtain ⟨k', old⟩ := entry
    rw [List.map_cons, List.mem_cons, not_or] at h
    rw [set, if_neg (Ne.symm h.1), ih h.2]
    rfl

/-- Values of new keys are added in order. -/
theorem assign_plain (fresh : Entries)
    (h : (entries.map Prod.fst ++ fresh.map Prod.fst).Nodup) :
    entries.assign (fresh.map .plain) = some (entries ++ fresh) := by
  induction fresh generalizing entries with
  | nil => simp [assign]
  | cons entry fresh ih =>
    have hnew : entry.1 ∉ entries.map Prod.fst := by
      intro hmem
      exact (List.nodup_append.mp h).2.2 entry.1 hmem entry.1 List.mem_cons_self rfl
    have hadd : entries.addDotted [] entry.1 entry.2 = some (entries ++ [entry]) := by
      rw [addDotted, add, lookup_eq_none hnew, set_eq_append hnew]
      rfl
    have hrest : (entries ++ [entry]).assign (fresh.map .plain) =
        some (entries ++ [entry] ++ fresh) := ih (by simpa using h)
    rw [assign] at hrest ⊢
    rw [List.map_cons, List.foldlM_cons]
    change (entries.addDotted [] entry.1 entry.2).bind _ = _
    rw [hadd, Option.bind_some, hrest, List.append_assoc]
    rfl

theorem update_plain {table : String × Entries} (hnew : table.1 ∉ entries.map Prod.fst)
    (hinner : (table.2.map Prod.fst).Nodup) :
    entries.update (Section.plain table).build [] table.1 =
      some (entries ++ [(table.1, .table .header table.2)]) := by
  have hbuild : (Section.plain table).build none = some (.table .header table.2) := by
    have hassign : assign [] (table.2.map .plain) = some table.2 := assign_plain table.2 hinner
    change (assign [] (table.2.map .plain)).map (Item.table .header) = _
    rw [hassign]
    rfl
  rw [update, lookup_eq_none hnew, hbuild]
  dsimp only [Option.bind_eq_bind, Option.bind_some]
  rw [set_eq_append hnew]

end Entries

/-- Where no key is given twice, a document describes what its lines say, in their order. -/
theorem Document.entries?_plain (entries : Entries) (tables : List (String × Entries))
    (hkeys : (entries.map Prod.fst ++ tables.map Prod.fst).Nodup)
    (hinner : ∀ table ∈ tables, (table.2.map Prod.fst).Nodup) :
    (Document.plain entries tables).entries? =
      some (entries ++ tables.map fun table => (table.1, .table .header table.2)) := by
  have htop : Entries.assign [] (entries.map .plain) = some entries :=
    Entries.assign_plain entries (List.nodup_append.mp hkeys).1
  have hsections (before : Entries)
      (hbefore : (before.map Prod.fst ++ tables.map Prod.fst).Nodup) :
      (tables.map Section.plain).foldlM
          (fun entries s => entries.update s.build s.path.tables s.path.key) before =
        some (before ++ tables.map fun table => (table.1, .table .header table.2)) := by
    clear hkeys
    induction tables generalizing before with
    | nil => simp
    | cons table tables ih =>
      obtain ⟨htable, htables⟩ := List.forall_mem_cons.mp hinner
      have hnew : table.1 ∉ before.map Prod.fst := by
        intro hmem
        exact (List.nodup_append.mp hbefore).2.2 table.1 hmem table.1 List.mem_cons_self rfl
      have hrest := ih htables (before ++ [(table.1, .table .header table.2)])
        (by simpa using hbefore)
      rw [List.map_cons, List.foldlM_cons]
      change (before.update (Section.plain table).build [] table.1).bind _ = _
      rw [Entries.update_plain hnew htable, Option.bind_some, hrest, List.append_assoc]
      rfl
  change (Entries.assign [] (entries.map .plain)).bind _ = _
  rw [htop, Option.bind_some]
  exact hsections entries hkeys

end Toml

end PrinterShadow
