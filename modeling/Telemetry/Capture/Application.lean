import Telemetry.Capture.Context
import Telemetry.Event.Enrich
import Telemetry.Http.Message
import Telemetry.World

/-!
# Applications

What an application does with one request, as far as the outside can tell: it reads messages from
the client, sends messages, lets time pass, looks at the event of the request and changes it, and in
the end it returns, raises an error or is cancelled. Running an application is a fold over these
steps.
-/

namespace Telemetry.Capture

open Http

/-- How an application ends. An error that it raises can be without a text; then to make one raises
another error. -/
inductive Ending
  | returned
  | raised (crash : Event.Crash)
  | textless (kind : String) (flaw : Event.Crash)
  | cancelled
deriving DecidableEq, Repr

/-- An application that serves one request and leaves a result. Outside of a captured request there
is no event to look at, and changing it does nothing. -/
inductive App (α : Type)
  | done (ending : Ending) (result : α)
  | send (message : Message) (next : App α)
  | receive (next : Incoming → App α)
  | pause (seconds : Double) (next : App α)
  | look (next : World → Option Json.Object → App α)
  | change (event : Json.Object) (next : App α)

/-- What surrounds an application while it runs: the messages that are still to come, those that
have been sent, and the events of the requests in progress. -/
structure Surroundings where
  world : World
  incoming : List Incoming
  sent : List Message
  context : Context

/-- Runs an application. Every message it sends goes through `relay`. -/
def App.run {α : Type} (relay : Message → Message) : App α → Surroundings →
    Ending × α × Surroundings
  | .done ending result, s => (ending, result, s)
  | .send message next, s => next.run relay { s with sent := s.sent ++ [relay message] }
  | .receive next, s =>
    let (message, rest) := nextMessage s.incoming
    (next message).run relay { s with incoming := rest }
  | .pause seconds next, s => next.run relay { s with world := s.world.elapse seconds }
  | .look next, s => (next s.world s.context.event?).run relay s
  | .change event next, s => next.run relay { s with context := s.context.change event }

/-- Makes an addition to the event. An addition that fails ends the application; outside of a
captured request it does nothing. -/
def App.enrich {α : Type} (addition : Event.Addition) (result : α) (next : App α) : App α :=
  .look fun world event =>
    match event with
    | none => next
    | some event =>
      let (event, crash) := addition.apply world.stopwatch event
      .change event (match crash with
        | none => next
        | some crash => .done (.raised crash) result)

/-- The status of the last start of a response among some messages. -/
def sentStatus? (messages : List Message) : Option Int :=
  messages.foldl (fun status message =>
    match message with
    | .start code _ _ => some code
    | _ => status) none

end Telemetry.Capture
