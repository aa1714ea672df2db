import PrinterShadow.Tracker.Operation

/-!
Delivery to a sink. What arrives is what the sink takes before it rejects a command for the first
time, and the error is the one it rejects that command with. No command is offered after that: a
sink that would answer otherwise only later is delivered the same.
-/

namespace PrinterShadow

namespace Sink

variable {sink other : Sink} {held commands : List String}

/-- Whether `P` holds of each command of a delivery and what the sink holds when it is offered, as
long as none is rejected. At the start it holds `held`. -/
def EachOffer (P : List String → String → Prop) (held commands : List String) : Prop :=
  ∀ earlier command, earlier ++ [command] <+: commands → P (held ++ earlier) command

theorem eachOffer_nil {P : List String → String → Prop} : EachOffer P held [] := by
  intro earlier command hprefix
  exact absurd (List.prefix_nil.mp hprefix) (List.append_ne_nil_of_right_ne_nil _ nofun)

theorem eachOffer_cons {P : List String → String → Prop} {command : String} :
    EachOffer P held (command :: commands) ↔
      P held command ∧ EachOffer P (held ++ [command]) commands := by
  constructor
  · intro h
    refine ⟨?_, fun earlier next hprefix => ?_⟩
    · simpa using h [] command (List.prefix_append [command] commands)
    · simpa using h (command :: earlier) next (List.prefix_cons_inj _ |>.mpr hprefix)
  · rintro ⟨hfirst, hrest⟩ earlier next hprefix
    cases earlier with
    | nil =>
      obtain ⟨rfl, -⟩ := List.cons_prefix_cons.mp hprefix
      simpa using hfirst
    | cons first earlier =>
      obtain ⟨rfl, hlater⟩ := List.cons_prefix_cons.mp hprefix
      simpa using hrest earlier next hlater

/-- A sink that takes all commands in their order. -/
def Takes (sink : Sink) : List String → List String → Prop :=
  EachOffer fun held command => sink held command = none

/-- Sinks that give the same answers to the commands in their order. -/
def Agrees (sink other : Sink) : List String → List String → Prop :=
  EachOffer fun held command => other held command = sink held command

/-- How a delivery of commands ends. -/
inductive Delivery (sink : Sink) (held commands : List String) :
    List String → Option InjectionError → Prop
  | complete (taken : sink.Takes held commands) : Delivery sink held commands commands none
  | stopped {delivered command undelivered error}
    (split : commands = delivered ++ command :: undelivered) (taken : sink.Takes held delivered)
    (rejected : sink (held ++ delivered) command = some error) :
    Delivery sink held commands delivered (some error)

theorem deliverAfter_cons_of_none {command : String} (h : sink held command = none) :
    sink.deliverAfter held (command :: commands) =
      (command :: (sink.deliverAfter (held ++ [command]) commands).1,
        (sink.deliverAfter (held ++ [command]) commands).2) := by
  rw [deliverAfter, h]

theorem deliverAfter_cons_of_some {command : String} {error : InjectionError}
    (h : sink held command = some error) :
    sink.deliverAfter held (command :: commands) = ([], some error) := by
  rw [deliverAfter, h]

theorem Delivery.cons {command : String} {delivered : List String} {error : Option InjectionError}
    (htaken : sink held command = none)
    (h : sink.Delivery (held ++ [command]) commands delivered error) :
    sink.Delivery held (command :: commands) (command :: delivered) error := by
  cases h with
  | complete taken => exact .complete (eachOffer_cons.mpr ⟨htaken, taken⟩)
  | stopped split taken rejected =>
    refine .stopped (by rw [split, List.cons_append]) (eachOffer_cons.mpr ⟨htaken, taken⟩) ?_
    rwa [List.append_assoc, List.singleton_append] at rejected

theorem delivery_deliverAfter (sink : Sink) (held commands : List String) :
    sink.Delivery held commands (sink.deliverAfter held commands).1
      (sink.deliverAfter held commands).2 := by
  induction commands generalizing held with
  | nil => exact .complete eachOffer_nil
  | cons command commands ih =>
    cases h : sink held command with
    | none =>
      rw [deliverAfter_cons_of_none h]
      exact .cons h (ih _)
    | some error =>
      rw [deliverAfter_cons_of_some h]
      exact .stopped rfl eachOffer_nil (by rwa [List.append_nil])

theorem Delivery.error_eq_none_iff {delivered : List String} {error : Option InjectionError}
    (h : sink.Delivery held commands delivered error) :
    error = none ↔ sink.Takes held commands := by
  cases h with
  | complete taken => exact iff_of_true rfl taken
  | @stopped _ command undelivered _ split taken rejected =>
    refine iff_of_false nofun fun htakes => ?_
    have hnone := htakes delivered command ⟨undelivered, by simp [split]⟩
    exact absurd (hnone.symm.trans rejected) nofun

/-- What is delivered depends on no answer beyond the first rejection. -/
theorem deliverAfter_congr (h : sink.Agrees other held
      (commands.take ((sink.deliverAfter held commands).1.length + 1))) :
    other.deliverAfter held commands = sink.deliverAfter held commands := by
  induction commands generalizing held with
  | nil => rfl
  | cons command commands ih =>
    obtain ⟨hsame, hlater⟩ := eachOffer_cons.mp h
    cases hanswer : sink held command with
    | none =>
      rw [deliverAfter_cons_of_none hanswer] at hlater ⊢
      rw [deliverAfter_cons_of_none (hsame.trans hanswer), ih hlater]
    | some error =>
      rw [deliverAfter_cons_of_some hanswer, deliverAfter_cons_of_some (hsame.trans hanswer)]

end Sink

namespace Channel

open Sink

variable {channel : Channel}

theorem deliverAfter_of_isClosed (h : channel.isClosed) (held commands : List String) :
    channel.sink.deliverAfter held commands = ([], commands.head?.map .closed) := by
  cases commands with
  | nil => rfl
  | cons command commands => exact deliverAfter_cons_of_some (if_pos h)

theorem deliverAfter_of_unbounded (hopen : channel.isClosed = false)
    (hcapacity : channel.capacity = none) (held commands : List String) :
    channel.sink.deliverAfter held commands = (commands, none) := by
  induction commands generalizing held with
  | nil => rfl
  | cons command commands ih =>
    have htaken : channel.sink held command = none := by simp [sink, hopen, hcapacity]
    rw [deliverAfter_cons_of_none htaken, ih]

theorem deliverAfter_of_bounded (hopen : channel.isClosed = false) {capacity : Nat}
    (hcapacity : channel.capacity = some capacity) (held commands : List String) :
    channel.sink.deliverAfter held commands = (commands.take (capacity - held.length),
      (commands.drop (capacity - held.length)).head?.map .full) := by
  induction commands generalizing held with
  | nil => simp [deliverAfter]
  | cons command commands ih =>
    by_cases hroom : held.length < capacity
    · have htaken : channel.sink held command = none := by simp [sink, hopen, hcapacity, hroom]
      have hleft : capacity - held.length = (capacity - (held ++ [command]).length) + 1 := by
        rw [List.length_append, List.length_singleton]
        omega
      rw [deliverAfter_cons_of_none htaken, ih, hleft, List.take_succ_cons, List.drop_succ_cons]
    · have hfull : channel.sink held command = some (.full command) := by
        simp [sink, hopen, hcapacity, hroom]
      rw [deliverAfter_cons_of_some hfull, Nat.sub_eq_zero_of_le (Nat.le_of_not_lt hroom)]
      rfl

end Channel

namespace Tracker

/-- To resume a print delivers the commands up to the first that the sink rejects, answers with that
rejection, offers nothing after it, and leaves the tracker as it is. Of a channel it is the first
command left that the error names. -/
theorem perform_resume_delivers (c : Config) (t : Tracker) (sink : Sink) :
    ∃ delivered error,
      t.perform c (.resume sink) = (t, .delivered delivered error) ∧
        sink.Delivery [] (t.resumeCommands c) delivered error ∧
        (error = none ↔ sink.Takes [] (t.resumeCommands c)) ∧
        (t.pause = none → delivered = [] ∧ error = none) ∧
        (∀ other, sink.Agrees other [] ((t.resumeCommands c).take (delivered.length + 1)) →
          t.perform c (.resume other) = (t, .delivered delivered error)) ∧
        ∀ channel : Channel, sink = channel.sink →
          (channel.isClosed →
            delivered = [] ∧ error = (t.resumeCommands c).head?.map .closed) ∧
          (channel.isClosed = false → channel.capacity = none →
            delivered = t.resumeCommands c ∧ error = none) ∧
          ∀ capacity, channel.isClosed = false → channel.capacity = some capacity →
            delivered = (t.resumeCommands c).take capacity ∧
              error = ((t.resumeCommands c).drop capacity).head?.map .full := by
  have hdelivery := sink.delivery_deliverAfter [] (t.resumeCommands c)
  refine ⟨_, _, rfl, hdelivery, hdelivery.error_eq_none_iff, fun hpause => ?_,
    fun other hagrees => ?_, fun channel hsink => ⟨fun hclosed => ?_, fun hopen hcapacity => ?_,
      fun capacity hopen hcapacity => ?_⟩⟩
  · simp [resumeCommands, resumeLines, hpause, Sink.deliverAfter]
  · have hsame := Sink.deliverAfter_congr hagrees
    change (t, Answer.delivered (other.deliverAfter [] _).1 (other.deliverAfter [] _).2) = _
    rw [hsame]
  · rw [hsink, Channel.deliverAfter_of_isClosed hclosed]
    exact ⟨rfl, rfl⟩
  · rw [hsink, Channel.deliverAfter_of_unbounded hopen hcapacity]
    exact ⟨rfl, rfl⟩
  · rw [hsink, Channel.deliverAfter_of_bounded hopen hcapacity]
    exact ⟨rfl, rfl⟩

/-- A print paused in relative positioning. -/
def relativePause : Tracker := run {} [.send { g := some 91 }, .storePause] (start {} 0)

theorem perform_resume_relativePause :
    relativePause.perform {} (.resume (Channel.sink { capacity := some 2 })) = (relativePause,
      .delivered ["G90", "G1 X0.00 Y0.00 F6000"] (some (.full "G1 Z0.00 F120"))) := by
  have hcommands : relativePause.resumeCommands {} = ["G90", "G1 X0.00 Y0.00 F6000",
      "G1 Z0.00 F120", "G92 E0.0000", "G91", "G1 F1000"] := by decide +kernel
  obtain ⟨delivered, error, hperform, -, -, -, -, hchannel⟩ :=
    perform_resume_delivers {} relativePause (Channel.sink { capacity := some 2 })
  obtain ⟨-, -, hbounded⟩ := hchannel _ rfl
  obtain ⟨rfl, rfl⟩ := hbounded 2 rfl rfl
  rw [hperform, hcommands]
  rfl

end Tracker

end PrinterShadow
