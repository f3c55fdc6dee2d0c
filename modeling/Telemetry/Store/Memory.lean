import Telemetry.Event.Basic
import Telemetry.Key

/-!
# Events in memory

A store that keeps its events in a list, in the order in which they were stored.
-/

namespace Telemetry.Store.Memory

/-- Adds an event at the end. -/
def insert (event : Event) (events : List Event) : List Event := events ++ [event]

/-- Whether a project has an event of a type. -/
def hasEventType (project eventType : String) (events : List Event) : Bool :=
  events.any fun e => e.project == project && e.eventType == eventType

/-- Whether an event of one of the projects arrived at or after a time. -/
def countsSince (projects : List String) (since : Time.DateTime) (e : Event) : Except Fault Bool :=
  if projects.contains e.project then
    match e.ingestedAt.compare? since with
    | some order => .ok (order != .lt)
    | none => .error mixedTimes
  else .ok false

/-- How many events of some projects arrived at or after a time. -/
def countSince (projects : List String) (since : Time.DateTime) : List Event → Except Fault Nat
  | [] => .ok 0
  | e :: rest => do
    let counts ← countsSince projects since e
    let more ← countSince projects since rest
    pure (if counts then more + 1 else more)

end Telemetry.Store.Memory
