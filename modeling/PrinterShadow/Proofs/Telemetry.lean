import PrinterShadow.Proofs.Decimal.LongestNumeral
import PrinterShadow.Proofs.NumberedHeaters

/-!
Which lines are telemetry, and what the others can tell. A line is telemetry just where the first
value of one of seven keys begins with a numeral, whatever is known of the printer. A line that is
none tells of the firmware, of positions and of readings, but sets no target and no multiplier and
leaves the fan alone.
-/

namespace PrinterShadow

open Status

/-- Whether a numeral is at the front of a text. -/
def BeginsWithNumeral (text : List Char) : Prop :=
  ∃ p, p <+: text ∧ p ∈ Numeral.pattern.matches'

open Numeral in
theorem isSome_leadingNumber?_iff {text : List Char} :
    (leadingNumber? text).isSome ↔ BeginsWithNumeral text := by
  rw [leadingNumber?, Option.isSome_map]
  constructor
  · intro h
    obtain ⟨w, hfront⟩ := exists_written_of_split? (Option.isSome_iff_ne_none.mp h)
    exact ⟨w.chars, hfront, mem_pattern_iff.mpr ⟨w, rfl⟩⟩
  · intro h
    obtain ⟨w, hlongest⟩ := exists_longestMatch h
    obtain ⟨rest, rfl⟩ := hlongest.front
    rw [(Written.longestMatch_iff.mp hlongest).split?]
    rfl

namespace Status

/-- The keys of telemetry. -/
def telemetryKeys : List String :=
  ["T", "SpeedMultiply", "FlowMultiply", "TargetExtr0", "TargetExtr1", "TargetBed", "Fanspeed"]

variable {ts : List Token}

theorem isSome_number?_iff {key : String} :
    (number? key ts).isSome ↔
      ∃ value, value? key ts = some value ∧ BeginsWithNumeral value.toList := by
  simp only [← isSome_leadingNumber?_iff, number?, Option.isSome_bind, Option.any_eq_true]

theorem isTelemetry_ofTokens :
    (Report.ofTokens ts).isTelemetry ↔ ∃ key ∈ telemetryKeys, (number? key ts).isSome := by
  simp [Report.isTelemetry, Report.ofTokens, telemetryKeys, integer?, or_assoc]

/-- What a report that is no telemetry has nothing of. -/
theorem Report.of_isTelemetry_eq_false {r : Report} (h : r.isTelemetry = false) :
    r.current.temperature = none ∧ r.speed = none ∧ r.flow = none ∧ r.firstTarget? = none ∧
      r.bedTarget = none ∧ r.fanVoltage = none := by
  simp only [isTelemetry, Bool.or_eq_false_iff, Option.isSome_eq_false_iff,
    Option.isNone_iff_eq_none, List.any_eq_false] at h
  obtain ⟨⟨⟨⟨⟨htemperature, hspeed⟩, hflow⟩, htargets⟩, hbed⟩, hfan⟩ := h
  refine ⟨htemperature, hspeed, hflow, ?_, hbed, hfan⟩
  refine List.findSome?_eq_none_iff.mpr fun target hmem => ?_
  exact Option.not_isSome_iff_eq_none.mp (htargets target (List.mem_reverse.mp hmem))

end Status

/-- An extruder without what a line can tell of it that is no telemetry. -/
def Extruder.unread (numbered active : Bool) (ex : Extruder) : Extruder :=
  { ex with
    heater := if numbered then { ex.heater with reading := 0, output := 0 } else ex.heater
    filament.position := if active then 0 else ex.filament.position }

theorem Extruder.unread_report {numbered active : Bool} {family : Firmware.Family}
    {x : ExtruderReport} (hreading : numbered = false → x.reading = ⟨none, none⟩)
    (htarget : x.target = none) (hposition : active = false → x.position = none) (ex : Extruder) :
    (ex.report family x).unread numbered active = ex.unread numbered active := by
  obtain ⟨reading, target, position⟩ := x
  obtain rfl : target = none := htarget
  cases numbered <;> cases active <;> simp_all [unread, report, Heater.update]

namespace Tracker

variable {t : Tracker} {r : Report} {ts : List Token} {k : Nat}

/-- Whether tokens report an extruder by a number that names the slot. -/
def isNumbered (t : Tracker) (ts : List Token) (k : Nat) : Bool :=
  (extruderNumbers ts).any fun n => t.numberedSlot n = k

/-- The tracker without what a line can tell that is no telemetry: what the firmware says of itself,
the positions of the head and of the active extruder's filament, and the readings of the bed and of
the heaters that the line has by number. -/
def unread (numbered : Nat → Bool) (t : Tracker) : Tracker :=
  { t with
    firmware := {}
    binaryVersion := 0
    motion.position := .replicate 0
    bed.reading := 0
    slots := t.slots.mapIdx fun k ex => ex.unread (numbered k) (k = t.active) }

theorem lastFor?_eq_none {α : Type} {f : Reading → Option α} (h : t.isNumbered ts k = false) :
    t.lastFor? (Report.ofTokens ts).extruders.zipIdx f k = none := by
  rw [lastFor?, List.findSome?_eq_none_iff, zipIdx_extruders]
  intro x hx
  obtain ⟨n, hn, rfl⟩ := List.mem_map.mp (List.mem_reverse.mp hx)
  rw [resolve_natCast]
  exact if_neg fun hslot => List.any_eq_false.mp h n hn (decide_eq_true hslot)

theorem reading_reportFor_of_not_isNumbered
    (htemperature : (Report.ofTokens ts).current.temperature = none)
    (h : t.isNumbered ts k = false) :
    (t.reportFor (Report.ofTokens ts) k).reading = ⟨none, none⟩ := by
  have hactive : (Report.ofTokens ts).activeReading = ⟨none, none⟩ := by
    rw [Report.activeReading, htemperature]
    rfl
  rw [reportFor, hactive, ite_self, Reading.nothing_replacing, readingFor, lastFor?_eq_none h,
    lastFor?_eq_none h]

theorem unread_apply (h : (Report.ofTokens ts).isTelemetry = false) :
    (t.apply (Report.ofTokens ts)).unread (t.isNumbered ts) = t.unread (t.isNumbered ts) := by
  obtain ⟨htemperature, hspeed, hflow, htarget, hbed, hfan⟩ := Report.of_isTelemetry_eq_false h
  have hslots : (t.apply (Report.ofTokens ts)).slots.mapIdx
        (fun k ex => ex.unread (t.isNumbered ts k) (k = t.active)) =
      t.slots.mapIdx fun k ex => ex.unread (t.isNumbered ts k) (k = t.active) := by
    rw [apply_eq_report]
    refine List.mapIdx_mapIdx.trans (congrArg (List.mapIdx · t.slots) (funext₂ fun k ex => ?_))
    refine Extruder.unread_report (fun hk => ?_) ?_ (fun hk => ?_) ex
    · exact reading_reportFor_of_not_isNumbered htemperature hk
    · rw [reportFor, htarget, ite_self]
    · exact if_neg (of_decide_eq_false hk)
  unfold unread
  simp only [active_apply]
  rw [hslots, apply_eq_report]
  simp only [reportSlots, applyDevice, applyIntroduction, htemperature, hspeed, hflow, hbed, hfan,
    Option.getD_none, Option.isSome_none, Bool.or_false]
  rfl

/-- A line is telemetry just where the first value of a key of telemetry begins with a numeral. A
line that is none changes only what the firmware says of itself, the positions of the head and of
the active extruder's filament, and the readings of the bed and of the heaters that it has by
number. -/
theorem telemetry_or_confined (t : Tracker) (line : String) :
    ((t.receive line).2 = .telemetry ↔
        ∃ key ∈ telemetryKeys, ∃ value, value? key (tokens line) = some value ∧
          BeginsWithNumeral value.toList) ∧
      ((t.receive line).2 = .unclassified →
        (t.receive line).1.unread (t.isNumbered (tokens line)) =
          t.unread (t.isNumbered (tokens line))) := by
  simp only [← isSome_number?_iff, ← isTelemetry_ofTokens]
  unfold receive
  dsimp only
  cases htelemetry : (Report.ofTokens (tokens line)).isTelemetry with
  | true => simp
  | false => exact ⟨by simp, fun _ => unread_apply htelemetry⟩

/-- A line whose first temperature is no number, before one that is. -/
def maskedLine : String := "T:x T:21 T0:20 @0:5 B:60 X:4"

theorem tokens_maskedLine :
    tokens maskedLine =
      [⟨"T", "x"⟩, ⟨"T", "21"⟩, ⟨"T0", "20"⟩, ⟨"@0", "5"⟩, ⟨"B", "60"⟩, ⟨"X", "4"⟩] := by
  decide +kernel

theorem maskedLine_confined :
    (secondActive.receive maskedLine).2 = .unclassified ∧
      (secondActive.receive maskedLine).1.unread (· = 0) = secondActive.unread (· = 0) := by
  have hclass : (secondActive.receive maskedLine).2 = .unclassified := by
    unfold receive
    rw [tokens_maskedLine]
    decide +kernel
  have hnumbered : secondActive.isNumbered (tokens maskedLine) = (· = 0) := by
    have hnumbers : extruderNumbers (tokens maskedLine) = [0] := by
      rw [tokens_maskedLine]
      decide +kernel
    funext k
    rw [isNumbered, hnumbers]
    simp [numberedSlot, eq_comm]
  have hconfined := (telemetry_or_confined secondActive maskedLine).2 hclass
  rw [hnumbered] at hconfined
  exact ⟨hclass, hconfined⟩

end Tracker

end PrinterShadow
