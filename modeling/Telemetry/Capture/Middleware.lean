import Telemetry.Capture.Application
import Telemetry.Delivery
import Telemetry.Event.Build
import Telemetry.Sampling.Policy
import Telemetry.Text.Glob

/-!
# Capturing requests

A layer around an application that makes one event of each request. The event starts with what is
known of the request, the application adds to it while it runs, and when it has ended the status,
the outcome, the duration and the error are written. Sampling decides whether the event is sent.

The client sees the application's own messages, with the trace id added to the headers of the
response; an error that the application raises goes on to the server. A request that is cancelled, or
ended by an error that nobody handles, leaves no event. In the end the current event is what it was
before.
-/

namespace Telemetry.Capture

open Http

/-! ## Configuration -/

/-- What is written into every event, which paths are left alone, and what is kept. -/
structure Config where
  service : String
  environment : String
  region : Option String
  excludedPaths : List String
  policy : Sampling.Policy

/-- The environment where none is named. -/
def defaultEnvironment : String := "development"

/-- Whether a path is left alone. -/
def Config.excludes (config : Config) (path : String) : Bool :=
  config.excludedPaths.any fun pattern => Text.Glob.matchesPattern pattern path

/-! ## Trace ids -/

/-- The header that carries a trace id, in requests and responses. -/
def traceHeader : String := "x-wideevent-trace-id"

/-- The header that carries a request id. -/
def requestIdHeader : String := "x-request-id"

/-- The value of a header, unless it is empty. -/
def nonemptyHeader? (name : String) (r : Request) : Option String :=
  (r.header? name).filter (· ≠ "")

/-- The trace id of a request: the caller's, or else the request id, or else a fresh one. -/
def traceIdOf (r : Request) (w : World) : String × World :=
  match (nonemptyHeader? traceHeader r).or (nonemptyHeader? requestIdHeader r) with
  | some id => (id, w)
  | none => w.drawId

/-- The message with the trace id added to the headers, if it starts the response. -/
def addTraceId (traceId : String) : Message → Message
  | .start status headers more =>
    .start status (some (headers.getD [] ++ [(traceHeader, traceId)])) more
  | message => message

/-! ## Events -/

/-- The event with which a request starts. -/
def seedEvent (config : Config) (r : Request) (traceId : String) (w : World) : Json.Object :=
  let event : Json.Object :=
    [("request_id", .str traceId), ("trace_id", .str traceId),
      ("timestamp", .str w.utcNow.millisText), ("method", .str r.verb), ("path", .str r.path),
      ("service", .str config.service), ("environment", .str config.environment)]
  match config.region with
  | some region => if region = "" then event else event ++ [("region", .str region)]
  | none => event

/-- An event after an addition that does not fail. -/
def add (w : World) (addition : Event.Addition) (event : Json.Object) : Json.Object :=
  (addition.apply w.stopwatch event).1

/-- The event of a request that has ended at some time: the error and the status of an error that
was raised, or else the status that was sent, and the time since the request began. -/
def complete (started : Double) (w : World) (crash : Option Event.Crash) (status : Option Int)
    (event : Json.Object) : Json.Object :=
  let event := match crash, status with
    | some crash, _ => add w (.setCrash crash) (add w (.setStatus (.int 500)) event)
    | none, some code => add w (.setStatus (.int code)) event
    | none, none => event
  add w (.setTiming "duration_ms" started) event

/-- The event that is sent, if sampling keeps it. Its method and its path make its name. -/
def finalize (config : Config) (w : World) (event : Json.Object) :
    Except Fault (Option ReadyEvent) := do
  if ← Sampling.keeps config.policy w.draw event then
    let method ← (Json.get "method" event).shown
    let path ← (Json.get "path" event).shown
    let name := method ++ " " ++ path
    let timestamp := (Event.readTimestamp? (Json.get "timestamp" event)).getD w.utcNow
    return some ⟨name, .obj event, timestamp⟩
  else return none

/-! ## Requests -/

/-- How a request has been served: how it ended for the server, what the application left, the
messages to the client, the events of the requests around it, and the event to be sent. -/
structure Served (α : Type) where
  ending : Except Fault Ending
  result : α
  messages : List Message
  unread : List Incoming
  context : Context
  ready : Option ReadyEvent
  world : World

/-- Serves a request that is left alone. -/
def passThrough {α : Type} (app : App α) (incoming : List Incoming) (context : Context)
    (w : World) : Served α :=
  let (ending, result, s) := app.run id ⟨w, incoming, [], context⟩
  ⟨.ok ending, result, s.sent, s.incoming, s.context, none, s.world⟩

/-- Whether an application was stopped: it was cancelled, or ended by an error that nobody
handles. -/
def Ending.isStopped : Ending → Bool
  | .returned => false
  | .raised crash => crash.isExit
  | .textless kind _ => Event.exitKinds.contains kind
  | .cancelled => true

/-- The error that an application raised, if it has a text. -/
def Ending.crash? : Ending → Option Event.Crash
  | .raised crash => some crash
  | _ => none

/-- What there is of a request when its application has ended, with the completed event. -/
structure Observed (α : Type) where
  ending : Ending
  result : α
  messages : List Message
  unread : List Incoming
  context : Context
  event : Json.Object
  world : World

/-- Runs an application with the event of its request, and completes the event. -/
def observe {α : Type} (config : Config) (app : App α) (r : Request) (incoming : List Incoming)
    (context : Context) (w : World) : Observed α :=
  let started := w.stopwatch
  let (traceId, w) := traceIdOf r w
  let seed := seedEvent config r traceId w
  let (token, context) := context.bind seed
  let (ending, result, s) := app.run (addTraceId traceId) ⟨w, incoming, [], context⟩
  let event := complete started s.world ending.crash? (sentStatus? s.sent)
    (s.context.event?.getD seed)
  ⟨ending, result, s.sent, s.incoming, s.context.unbind token, event, s.world⟩

/-- Serves a request and makes an event of it, unless the application was stopped. An error without
a text cannot be written into the event. -/
def capture {α : Type} (config : Config) (app : App α) (r : Request) (incoming : List Incoming)
    (context : Context) (w : World) : Served α :=
  let o := observe config app r incoming context w
  let served (ending : Except Fault Ending) (ready : Option ReadyEvent) : Served α :=
    ⟨ending, o.result, o.messages, o.unread, o.context, ready, o.world⟩
  if o.ending.isStopped then served (.ok o.ending) none
  else
    match o.ending with
    | .textless _ flaw => served (.ok (.raised flaw)) none
    | ending =>
      match finalize config o.world o.event with
      | .ok ready => served (.ok ending) ready
      | .error fault => served (.error fault) none

/-- Serves a request with an application inside the layer. -/
def serve {α : Type} (config : Config) (app : App α) (r : Request) (incoming : List Incoming)
    (context : Context) (w : World) : Served α :=
  if !r.plain || config.excludes r.path then passThrough app incoming context w
  else capture config app r incoming context w

end Telemetry.Capture
