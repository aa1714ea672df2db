import PrinterShadow.Config.Toml
import PrinterShadow.Proofs.Config.Limits
import PrinterShadow.Proofs.Decimal.Shortest
import PrinterShadow.Proofs.Toml.Document
import PrinterShadow.Proofs.Toml.Scalar

/-!
A configuration without faults reads back from its text. Every value is written so that it is read
as it was: the name in one of the forms of strings, numbers in their shortest digits, and the limits
of each axis in a table of their own.
-/

namespace PrinterShadow

namespace Config

open Decimal (signed pointed)
open Toml (Item Entries Writes Reads IsBare)

theorem point_notMem_toDigits (negative : Bool) (n : Nat) :
    '.' ∉ signed negative (Nat.toDigits 10 n) := by
  have hdigits : '.' ∉ Nat.toDigits 10 n := fun h => nomatch Numeral.isDigit_of_mem_toDigits h
  cases negative with
  | true => exact List.not_mem_cons_of_ne_of_not_mem (by decide) hdigits
  | false => exact hdigits

theorem point_mem_pointed (negative : Bool) (places n : Nat) :
    '.' ∈ signed negative (pointed (places + 1) n) := by
  cases negative <;> simp [signed, Decimal.pointed_succ]

/-- A finite double is written with a fraction, and as a decimal that reads as the double. -/
theorem exists_floatChars {x : Float} (h : x.isFinite) :
    ∃ (negative : Bool) (places n : Nat),
      floatChars x = signed negative (pointed (places + 1) n) ∧
        Decimal.toFloat ⟨negative, n, -(places + 1 : Nat)⟩ = x := by
  obtain ⟨negative, m, e, hexact⟩ := Exact.isFinite_iff.mp h
  have hread := Decimal.toFloat_shortest hexact
  have hchars : shortestChars x = (Decimal.shortest x negative m e).positional := by
    rw [shortestChars, hexact]
  rw [floatChars, Double.isNaN_eq_false (Double.ne_nan_of_isFinite h), h, hchars]
  generalize Decimal.shortest x negative m e = d at hread ⊢
  obtain ⟨s, n, f⟩ := d
  by_cases hneg : f < 0
  · obtain ⟨places, rfl⟩ : ∃ places : Nat, f = -(places + 1 : Nat) := ⟨f.natAbs - 1, by omega⟩
    refine ⟨s, places, n, ?_, hread⟩
    have hpositional : (Decimal.mk s n (-(places + 1 : Nat))).positional =
        signed s (pointed (places + 1) n) := by
      rw [Decimal.positional, if_pos hneg, Int.natAbs_neg, Int.natAbs_natCast]
    have hpoint : (signed s (pointed (places + 1) n)).contains '.' = true := by
      simpa using point_mem_pointed s places n
    dsimp only
    rw [hpositional, hpoint]
    rfl
  · -- a whole value gets its fraction after the digits
    obtain ⟨k, rfl⟩ := Int.eq_ofNat_of_zero_le (not_lt.mp hneg)
    have hpositional : (Decimal.mk s n k).positional =
        signed s (Nat.toDigits 10 (n * 10 ^ k)) := by
      rw [Decimal.positional, if_neg hneg, Int.natAbs_natCast, Nat.pow_eq]
    have hpoint : (signed s (Nat.toDigits 10 (n * 10 ^ k))).contains '.' = false := by
      simpa using point_notMem_toDigits s (n * 10 ^ k)
    have hfraction : pointed 1 (n * 10 ^ k * 10) = Nat.toDigits 10 (n * 10 ^ k) ++ ['.', '0'] := by
      simp [pointed, Decimal.lastDigits]
    refine ⟨s, 0, n * 10 ^ k * 10, ?_, ?_⟩
    · dsimp only
      rw [hpositional, hpoint, hfraction]
      cases s <;> rfl
    · have htens : n * 10 ^ k * 10 = n * 10 ^ (k + 1) := by rw [Nat.pow_succ, Nat.mul_assoc]
      rw [htens, Decimal.toFloat_mul_pow, ← hread]
      congr 2
      omega

/-! ## Values -/

theorem writes_signed {scalar : Toml.Scalar} (negative : Bool) {ch : Char} {body : List Char}
    (hdigit : ch.isDigit) (hread : ∀ rest,
      Toml.Scalar.read? (signed negative (ch :: body) ++ '\n' :: rest) =
        some (scalar, '\n' :: rest)) :
    Writes (.scalar scalar) (signed negative (ch :: body)) := by
  cases negative with
  | true => exact Toml.writes_scalar rfl (by decide) hread
  | false =>
    have hne {c : Char} (hc : c.isDigit = false) : ch ≠ c := by
      rintro rfl
      rw [hc] at hdigit
      nomatch hdigit
    refine Toml.writes_scalar ?_ ?_ hread
    · simp [Toml.isBlank, hne (c := ' ') rfl, hne (c := '\t') rfl]
    · simp [hne (c := '[') rfl, hne (c := '\x7b') rfl, hne (c := '"') rfl, hne (c := '\'') rfl]

theorem writes_finite {x : Float} (h : x.isFinite) :
    Writes (.scalar (.float x)) (floatChars x) := by
  obtain ⟨negative, places, n, hchars, hread⟩ := exists_floatChars h
  have hscalar (rest : List Char) :
      Toml.Scalar.read? (signed negative (pointed (places + 1) n) ++ '\n' :: rest) =
        some (.float x, '\n' :: rest) := by
    have hfinite := Double.isInf_eq_false h
    rw [← hread] at hfinite ⊢
    exact Toml.Scalar.read?_pointed negative places n rest hfinite
  obtain ⟨ch, body, hdigits, hdigit⟩ := Decimal.exists_toDigits (n / Nat.pow 10 (places + 1))
  rw [hchars]
  rw [Decimal.pointed_succ, hdigits] at hscalar ⊢
  exact writes_signed negative hdigit hscalar

/-- A jog speed without fault may be infinite, for which TOML has a name. -/
theorem writes_speed {x : Float} (hnan : x ≠ .nan) (hpos : ¬ x ≤ 0) :
    Writes (.scalar (.float x)) (floatChars x) := by
  by_cases hfinite : x.isFinite
  · exact writes_finite hfinite
  · have hunpack : x.toModel.unpack = (1 / 0 : Float).toModel.unpack := by
      have hzero : (0 : Float).toModel.unpack = .zero .positive := by rfl
      have hinf : (1 / 0 : Float).toModel.unpack = .infinity .positive := by rfl
      rw [Ne, ← Double.unpack_eq_notANumber] at hnan
      change ¬ x.toModel.unpack.isFinite = true at hfinite
      rw [Double.le_iff_compare, hzero] at hpos
      rw [hinf]
      revert hnan hfinite hpos
      cases x.toModel.unpack with
      | infinity s => cases s <;> simp [Float.Model.UnpackedFloat.compare]
      | _ => simp [Float.Model.UnpackedFloat.isFinite]
    rw [Double.unpack_inj hunpack]
    exact Toml.writes_scalar rfl (by decide) Toml.Scalar.read?_inf

theorem writes_count {n : Nat} (h : n ≤ Int64.maxValue.toInt) :
    Writes (.scalar (.integer n)) (Nat.toDigits 10 n) := by
  have hscalar := Toml.Scalar.read?_toDigits h
  obtain ⟨ch, body, hdigits, hdigit⟩ := Decimal.exists_toDigits n
  rw [hdigits] at hscalar ⊢
  exact writes_signed false hdigit hscalar

/-! ## Lines -/

theorem reads_line (key : String) {value rest : List Char} {item : Item} {entries : Entries}
    {tables : List (String × Entries)} (h : Reads rest (.plain entries tables))
    (hkey : IsBare key.toList) (hvalue : Writes item value) :
    Reads (lineChars key value ++ rest) (.plain ((key, item) :: entries) tables) := by
  have hline := h.assignment hkey hvalue
  rwa [String.ofList_toList] at hline

/-- What is written of the limits of an axis. -/
def limitsEntries (l : Limits) : Entries :=
  [("min", .scalar (.float l.lower)), ("max", .scalar (.float l.upper)),
    ("home", .scalar (.float l.home))]

/-- The name of the table of an axis. -/
def tableKey (a : Cartesian) : String := String.ofList [a.letter.toLower]

theorem reads_limits (a : Cartesian) {l : Limits} (hl : l.Valid) {rest : List Char}
    {tables : List (String × Entries)} (h : Reads rest (.plain [] tables)) :
    Reads (limitsChars a l ++ rest) (.plain [] ((tableKey a, limitsEntries l) :: tables)) := by
  have hhome : l.home.isFinite := hl.isFinite_of_contains hl.home
  have hlines := reads_line "min"
    (reads_line "max" (reads_line "home" h (by decide) (writes_finite hhome)) (by decide)
      (writes_finite hl.upper)) (by decide) (writes_finite hl.lower)
  have hkey : IsBare [a.letter.toLower] := by cases a <;> decide
  have hsplit : limitsChars a l ++ rest =
      '\n' :: ('[' :: [a.letter.toLower] ++ [']', '\n'] ++
        (lineChars "min" (floatChars l.lower) ++ (lineChars "max" (floatChars l.upper) ++
          (lineChars "home" (floatChars l.home) ++ rest)))) := by
    simp [limitsChars]
  rw [hsplit]
  exact (hlines.header hkey).emptyLine

/-! ## The whole text -/

/-- What is written of a configuration before the tables of its axes. -/
def scalarEntries (c : Config) : Entries :=
  [("name", .text c.name), ("xy_jog_speed", .scalar (.float c.xyJogSpeed)),
    ("z_jog_speed", .scalar (.float c.zJogSpeed)),
    ("extruder_count", .scalar (.integer c.extruderCount))]

def axisTables (c : Config) : List (String × Entries) :=
  Cartesian.all.map fun a => (tableKey a, limitsEntries (c.limits.get a))

theorem parse?_toToml {c : Config} (h : c.validate = .ok ()) (hxy : c.xyJogSpeed ≠ .nan)
    (hz : c.zJogSpeed ≠ .nan) : ∃ text, c.toToml = .ok text ∧
      Toml.parse? text =
        some (c.scalarEntries ++ c.axisTables.map fun table => (table.1, .table .header table.2)) := by
  obtain ⟨hxypos, hzpos⟩ := jogSpeeds_of_validate h
  have hlimits := valid_limits h
  have hcount : (c.extruderCount : Int) ≤ Int64.maxValue.toInt := by
    have hmax : (maxExtruders : Int) ≤ Int64.maxValue.toInt := by decide
    have hle := extruderCount_le_of_validate h
    omega
  have htables : Reads (Cartesian.all.flatMap fun a => limitsChars a (c.limits.get a))
      (.plain [] c.axisTables) :=
    reads_limits .x (hlimits .x) (reads_limits .y (hlimits .y)
      (reads_limits .z (hlimits .z) Reads.nil))
  have hreads := reads_line "name" (reads_line "xy_jog_speed" (reads_line "z_jog_speed"
    (reads_line "extruder_count" htables (by decide) (writes_count hcount)) (by decide)
      (writes_speed hz hzpos)) (by decide) (writes_speed hxy hxypos)) (by decide)
        (Toml.writes_text c.name)
  have hkeys : (c.scalarEntries.map Prod.fst ++ c.axisTables.map Prod.fst).Nodup := by
    change ["name", "xy_jog_speed", "z_jog_speed", "extruder_count", "x", "y", "z"].Nodup
    decide
  have hinner : ∀ table ∈ c.axisTables, (table.2.map Prod.fst).Nodup := by
    intro table htable
    obtain ⟨a, -, rfl⟩ := List.mem_map.mp htable
    change ["min", "max", "home"].Nodup
    decide
  have hmark (rest : List Char) :
      (lineChars "name" (Toml.Text.write c.name.toList) ++ rest).head? ≠ some '\uFEFF' := by
    simp [lineChars]
  refine ⟨_, ?_, (Toml.parse?_of_reads hreads (hmark _)).trans
    (Toml.Document.entries?_plain c.scalarEntries c.axisTables hkeys hinner)⟩
  rw [toToml, if_pos hcount]
  simp only [List.append_assoc]

theorem limits?_table (l : Limits) : limits? (.table .header (limitsEntries l)) = some l := by
  simp [limits?, limitsEntries, List.lookup, number?]

theorem ofEntries?_toToml (c : Config) :
    ofEntries? (c.scalarEntries ++ c.axisTables.map fun table => (table.1, .table .header table.2)) =
      some c := by
  have hentries : c.scalarEntries ++
      c.axisTables.map (fun table => (table.1, Item.table .header table.2)) =
        [("name", .text c.name), ("xy_jog_speed", .scalar (.float c.xyJogSpeed)),
          ("z_jog_speed", .scalar (.float c.zJogSpeed)),
          ("extruder_count", .scalar (.integer c.extruderCount)),
          ("x", .table .header (limitsEntries c.limits.x)),
          ("y", .table .header (limitsEntries c.limits.y)),
          ("z", .table .header (limitsEntries c.limits.z))] := rfl
  rw [hentries]
  simp [ofEntries?, entry?, List.lookup, limits?_table, number?, text?, count?]

theorem sameAs_self {c : Config} (hlimits : ∀ a, (c.limits.get a).Valid)
    (hxy : c.xyJogSpeed ≠ .nan) (hz : c.zJogSpeed ≠ .nan) : c.sameAs c = true := by
  have hfinite {x : Float} (hx : x.isFinite) : (x == x) = true :=
    Double.beq_self_iff.mpr (Double.ne_nan_of_isFinite hx)
  have haxes : ∀ a ∈ Cartesian.all, (let l := c.limits.get a
      l.lower == l.lower && l.upper == l.upper && l.home == l.home) = true := by
    intro a _
    have hl := hlimits a
    simp [hfinite hl.lower, hfinite hl.upper, hfinite (hl.isFinite_of_contains hl.home)]
  rw [sameAs, Double.beq_self_iff.mpr hxy, Double.beq_self_iff.mpr hz, List.all_eq_true.mpr haxes]
  simp

/-- A configuration without faults is read back from its text, if its jog speeds are numbers. -/
theorem ofToml_toToml {c : Config} (h : c.validate = .ok ()) (hxy : c.xyJogSpeed ≠ .nan)
    (hz : c.zJogSpeed ≠ .nan) :
    ∃ text, c.toToml = .ok text ∧ ofToml text = .ok c ∧ c.sameAs c = true := by
  obtain ⟨text, htext, hparse⟩ := parse?_toToml h hxy hz
  refine ⟨text, htext, ?_, ?_⟩
  · rw [ofToml, hparse, Option.bind_some, ofEntries?_toToml]
    dsimp only
    rw [h]
    rfl
  · exact sameAs_self (valid_limits h) hxy hz

/-- A printer whose name has quotes, a backslash, a line end and a control character. -/
def quotedPrinter : Config :=
  { name := "shop \"A\" \\ shelf\n'''2'''\x01"
    limits := ⟨⟨-0.1, 230.5, 0⟩, ⟨-0.0, 1e-7, 0⟩, ⟨-1e300, 1e300, 0.3⟩⟩
    xyJogSpeed := 1 / 0
    zJogSpeed := 5e-324
    extruderCount := 16 }

theorem ofToml_toToml_quoted : quotedPrinter.validate = .ok () ∧
    ∃ text, quotedPrinter.toToml = .ok text ∧ ofToml text = .ok quotedPrinter ∧
      quotedPrinter.sameAs quotedPrinter = true := by
  have hvalid : quotedPrinter.validate = .ok () := by decide +kernel
  exact ⟨hvalid, ofToml_toToml hvalid (by decide +kernel) (by decide +kernel)⟩

end Config

end PrinterShadow
