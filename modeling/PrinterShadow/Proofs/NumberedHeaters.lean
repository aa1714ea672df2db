import PrinterShadow.Proofs.HeaterOutput

/-!
The heaters of extruders that a line reports by number. The numbers count up to the first that is
missing, and each names a slot, those beyond the slots the first one. For a slot the largest of its
numbers counts, and for the active slot the bare tokens count before any number. What has a number
from the first missing one on is not read.
-/

namespace PrinterShadow

open Status

/-- What a function gives for the largest number below `k` for which it gives something. -/
def lastBelow? {α : Type} (f : Nat → Option α) : Nat → Option α
  | 0 => none
  | k + 1 => (f k).or (lastBelow? f k)

namespace Tracker

variable {t : Tracker} {ts : List Token} {k s : Nat}

/-- The slot that the number of an extruder names. -/
def numberedSlot (t : Tracker) (n : Nat) : Nat := if n < t.slots.length then n else 0

theorem lastFor?_map_range {α : Type} (g : Nat → Reading) (f : Reading → Option α) (k s : Nat) :
    t.lastFor? ((List.range k).map fun n => (g n, n)) f s =
      lastBelow? (fun n => if t.numberedSlot n = s then f (g n) else none) k := by
  induction k with
  | zero => rfl
  | succ k ih =>
    rw [List.range_succ, List.map_append, List.map_singleton, lastFor?_concat, ih,
      resolve_natCast]
    rfl

/-- The temperature that tokens have for a slot: that of the active extruder for its slot, else that
with the largest number below `k` that names the slot. -/
def temperatureFor? (t : Tracker) (ts : List Token) (k s : Nat) : Option Float :=
  (if s = t.active then number? "T" ts else none).or
    (lastBelow? (fun n =>
      if t.numberedSlot n = s then number? (temperatureKey n) ts else none) k)

/-- The heater output that tokens have for a slot: that of the active extruder for its slot, if
there is a temperature beside it, else that with the largest number below `k` that names the
slot. -/
def outputFor? (t : Tracker) (ts : List Token) (k s : Nat) : Option Int32 :=
  (if s = t.active ∧ (number? "T" ts).isSome then integer? "@" ts else none).or
    (lastBelow? (fun n =>
      if t.numberedSlot n = s then integer? (outputKey n) ts else none) k)

theorem reading_reportFor (hmissing : hasKey (temperatureKey k) ts = false)
    (hbelow : ∀ n < k, hasKey (temperatureKey n) ts) (s : Nat) :
    (t.reportFor (Report.ofTokens ts) s).reading =
      ⟨t.temperatureFor? ts k s, t.outputFor? ts k s⟩ := by
  have hnumbered : t.readingFor (Report.ofTokens ts).extruders.zipIdx s =
      ⟨lastBelow? (fun n =>
          if t.numberedSlot n = s then number? (temperatureKey n) ts else none) k,
        lastBelow? (fun n =>
          if t.numberedSlot n = s then integer? (outputKey n) ts else none) k⟩ := by
    rw [readingFor, zipIdx_extruders, extruderNumbers_eq hmissing hbelow, lastFor?_map_range,
      lastFor?_map_range]
  have hactive : (Report.ofTokens ts).activeReading =
      ⟨number? "T" ts, if (number? "T" ts).isSome then integer? "@" ts else none⟩ := by
    unfold Report.activeReading
    cases htemperature : number? "T" ts <;> simp [Report.ofTokens, htemperature]
  rw [reportFor, hnumbered, hactive]
  unfold temperatureFor? outputFor? Reading.replacing
  by_cases hs : s = t.active <;> simp [hs]

/-- What a line tells of the heaters of extruders. There is a first number `k` that is missing; of
the numbers below it the largest counts for a slot, and for the active slot the bare tokens count
before these. An output is on the scale of the family that holds after the line. Whatever has the
number `k` or a larger one is not read. -/
theorem heaters_receive (t : Tracker) (line : String) :
    ∃ k ≤ (tokens line).length,
      hasKey (temperatureKey k) (tokens line) = false ∧
      (∀ n < k, hasKey (temperatureKey n) (tokens line)) ∧
      (∀ s < t.slots.length,
        ((t.receive line).1.extruderAt s).heater.reading =
            (t.temperatureFor? (tokens line) k s).getD (t.extruderAt s).heater.reading ∧
          ((t.receive line).1.extruderAt s).heater.output =
            ((t.outputFor? (tokens line) k s).map
              (t.receive line).1.firmware.family.normalizeOutput).getD
                (t.extruderAt s).heater.output) ∧
      ∀ line', AgreeBelow k (tokens line) (tokens line') → t.receive line' = t.receive line := by
  obtain ⟨k, hk, hmissing, hbelow⟩ := exists_firstMissing (tokens line)
  refine ⟨k, hk, hmissing, hbelow, fun s hs => ?_, fun line' h => ?_⟩
  · have hextruder := extruderAt_apply hs (Report.ofTokens (tokens line))
    have hreading := reading_reportFor (t := t) hmissing hbelow s
    rw [Extruder.report, hreading] at hextruder
    have hheater := congrArg Extruder.heater hextruder
    exact ⟨congrArg Heater.reading hheater, congrArg Heater.output hheater⟩
  · unfold receive
    rw [h.ofTokens hbelow]

/-- Two slots, of which the second is active. -/
def secondActive : Tracker := { start {} 0 with active := 1 }

/-- A line with a number without a value, one beyond the slots, and one after a missing number. -/
def sparseLine : String := "T0:20 T1:x T2:23 @2:7 T4:9 @3:8 T:31 @:64 FIRMWARE_NAME:Marlin"

theorem tokens_sparseLine :
    tokens sparseLine = [⟨"T0", "20"⟩, ⟨"T1", "x"⟩, ⟨"T2", "23"⟩, ⟨"@2", "7"⟩, ⟨"T4", "9"⟩,
      ⟨"@3", "8"⟩, ⟨"T", "31"⟩, ⟨"@", "64"⟩, ⟨"FIRMWARE_NAME", "Marlin"⟩] := by
  decide +kernel

theorem heaters_after_sparseLine :
    ((secondActive.receive sparseLine).1.extruderAt 0).heater.reading = 23 ∧
      ((secondActive.receive sparseLine).1.extruderAt 0).heater.output = 14 ∧
      ((secondActive.receive sparseLine).1.extruderAt 1).heater.output = 128 ∧
      secondActive.receive "T0:20 T1:x T2:23 @2:7 T:31 @:64 FIRMWARE_NAME:Marlin" =
        secondActive.receive sparseLine := by
  obtain ⟨k, -, hmissing, hbelow, hheaters, hrest⟩ := heaters_receive secondActive sparseLine
  have hthree : k = 3 := by
    have hpresent : ∀ n < 3, hasKey (temperatureKey n) (tokens sparseLine) := by
      rw [tokens_sparseLine]
      decide +kernel
    have hgap : hasKey (temperatureKey 3) (tokens sparseLine) = false := by
      rw [tokens_sparseLine]
      decide +kernel
    refine Nat.le_antisymm (Nat.not_lt.mp fun h => ?_) (Nat.not_lt.mp fun h => ?_)
    · exact absurd (hbelow 3 h) (by simp [hgap])
    · exact absurd (hpresent k h) (by simp [hmissing])
  subst hthree
  have hfamily : (secondActive.receive sparseLine).1.firmware.family = .marlin := by
    decide +kernel
  have htemperature : secondActive.temperatureFor? (tokens sparseLine) 3 0 = some 23 := by
    rw [tokens_sparseLine]
    decide +kernel
  have hnumbered : secondActive.outputFor? (tokens sparseLine) 3 0 = some 7 := by
    rw [tokens_sparseLine]
    decide +kernel
  have hbare : secondActive.outputFor? (tokens sparseLine) 3 1 = some 64 := by
    rw [tokens_sparseLine]
    decide +kernel
  obtain ⟨hreading, hfirst⟩ := hheaters 0 (by decide)
  have hsecond := (hheaters 1 (by decide)).2
  rw [htemperature, Option.getD_some] at hreading
  rw [hnumbered, hfamily, Option.map_some, Option.getD_some] at hfirst
  rw [hbare, hfamily, Option.map_some, Option.getD_some] at hsecond
  refine ⟨hreading, hfirst.trans (by decide +kernel), hsecond.trans (by decide +kernel),
    hrest _ ?_⟩
  have htokens : tokens "T0:20 T1:x T2:23 @2:7 T:31 @:64 FIRMWARE_NAME:Marlin" =
      [⟨"T0", "20"⟩, ⟨"T1", "x"⟩, ⟨"T2", "23"⟩, ⟨"@2", "7"⟩, ⟨"T", "31"⟩, ⟨"@", "64"⟩,
        ⟨"FIRMWARE_NAME", "Marlin"⟩] := by
    decide +kernel
  rw [tokens_sparseLine, htokens]
  exact
    { plain := by decide
      temperature := by decide +kernel
      output := by decide +kernel
      missing := by decide +kernel
      missing' := by decide +kernel }

end Tracker

end PrinterShadow
