import PrinterShadow.Error

/-!
Handing commands to the sender. A sink accepts or rejects each command by what it has accepted so
far; the first command that is rejected ends the delivery.
-/

namespace PrinterShadow

/-- Why a sink that accepted some commands rejects the next; `none` where it accepts it. -/
abbrev Sink := List String → String → Option InjectionError

namespace Sink

/-- What a sink that holds `accepted` already takes of the commands in their order, and the error
that ended the delivery. -/
def deliverAfter (sink : Sink) (accepted : List String) : List String →
    List String × Option InjectionError
  | [] => ([], none)
  | command :: rest =>
    match sink accepted command with
    | some error => ([], some error)
    | none =>
      let (delivered, error) := deliverAfter sink (accepted ++ [command]) rest
      (command :: delivered, error)

/-- What an empty sink takes of the commands, and the error that ended the delivery. -/
def deliver (sink : Sink) (commands : List String) : List String × Option InjectionError :=
  deliverAfter sink [] commands

end Sink

/-- A channel to the sender, whose receiver takes nothing out during a delivery. -/
structure Channel where
  /-- How many commands it holds at most, where it is bounded. -/
  capacity : Option Nat := none
  isClosed : Bool := false
  deriving DecidableEq, Repr

/-- A closed channel takes nothing, whether full or not; an open one takes commands while it has
room. -/
def Channel.sink (channel : Channel) : Sink := fun accepted command =>
  if channel.isClosed then some (.closed command)
  else
    match channel.capacity with
    | none => none
    | some capacity => if accepted.length < capacity then none else some (.full command)

end PrinterShadow
