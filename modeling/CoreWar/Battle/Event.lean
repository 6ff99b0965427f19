import CoreWar.Machine.Instruction

/-!
Contract: what can be observed of a match.

Owns:
- the events and their tags;
- their delivery to subscribers.

Does not own: when events happen, see `CoreWar.Battle.Basic`.
-/

namespace CoreWar

/-- Something that happened in a match. -/
inductive Event where
  /-- An instruction was executed; it is given as it was fetched. -/
  | step (warrior : String) (address : UInt64) (instruction : Instruction)
  /-- A thread was ended by a fault. -/
  | fault (warrior : String) (address : UInt64) (message : String)
  /-- A warrior's last thread ended. -/
  | died (warrior : String)
  /-- The warrior is the last one left. -/
  | won (warrior : String)
  /-- The match ended without a winner. -/
  | tie (cycles : UInt64)
  /-- A warrior could not be loaded. -/
  | error (message : String)
deriving DecidableEq, Repr

namespace Event

/-- The word that names the kind of an event. -/
def tag : Event → String
  | step .. => "step"
  | fault .. => "fault"
  | died .. => "died"
  | won .. => "won"
  | tie .. => "tie"
  | error .. => "error"

def isStep : Event → Bool
  | step .. => true
  | _ => false

/-- Every subscriber receives every event, in the order in which they subscribed. -/
def deliver (subscribers : Nat) (events : List Event) : List (Nat × Event) :=
  events.flatMap fun event => (List.range subscribers).map fun subscriber => (subscriber, event)

end Event

end CoreWar
