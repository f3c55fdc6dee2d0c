import Telemetry.Gate.Ingest
import Telemetry.Http.Remote
import Telemetry.Json.Printer

/-!
# Delivery

How a captured event gets to a gate: over HTTP, or to a gate in the same process. Delivery never
fails; it answers whether the gate has accepted the event.
-/

namespace Telemetry

open Http

/-- A captured event that is ready to be sent. -/
structure ReadyEvent where
  eventType : String
  properties : Json
  timestamp : Time.DateTime

/-- The body of a request that delivers an event. -/
def ReadyEvent.body (e : ReadyEvent) : Json.Object :=
  [("event", .str e.eventType), ("properties", e.properties),
    ("timestamp", .str e.timestamp.millisText)]

namespace Delivery

/-! ## Over HTTP -/

/-- The request that delivers an event, unless the event holds a number that JSON cannot write. -/
def request? (apiKey : String) (e : ReadyEvent) : Option Outgoing :=
  let body := Json.obj e.body
  if body.allFinite then
    some ⟨"POST", "/ingest", [],
      [("Authorization", some ("Bearer " ++ apiKey)), ("Content-Type", some "application/json")],
      body.render .compactRaw⟩
  else none

/-- Sends an event to a gate's endpoint. -/
def send (apiKey : String) (e : ReadyEvent) : Online Bool :=
  match request? apiKey e with
  | none => return false
  | some r =>
    if !r.isSendable then return false
    else do
      match ← exchange r with
      | .response status _ => return isSuccess status
      | .failed _ => return false

/-- The properties of an event that is sent on its own: the pairs of a value, none if the value
counts as nothing. -/
def propertiesOf (v : Json) : Except Fault (List (Json × Json)) :=
  if v.isTruthy then v.pairs.mapError Json.PairsFlaw.toFault else .ok []

/-- Sends an event on its own, at a time or now. Like every number of an event, a key must be
finite. -/
def sendNew (apiKey eventType : String) (properties : Json) (timestamp : Option Time.DateTime) :
    Online Bool := do
  let properties ← (propertiesOf properties : Except Fault (List (Json × Json)))
  let link ← getThe Link
  if properties.all fun (key, _) => key.allFinite then
    send apiKey
      ⟨eventType, .obj (Json.ofPairs properties), timestamp.getD link.world.utcNow⟩
  else return false

/-! ## Pings -/

/-- The interpreter and platform that a ping reports. -/
structure Client where
  version : String
  platform : String
deriving DecidableEq, Repr

/-- The properties of a ping. -/
def pingProperties (client : Client) : Json.Object :=
  [("status_code", .int 200), ("outcome", .str "success"), ("duration_ms", .int 0),
    ("sdk", .str "wideevent-python"), ("runtime", .str "python"),
    ("python_version", .str client.version), ("platform", .str client.platform),
    ("ping_type", .str "connection_test"), ("message", .str "Connected and ready.")]

/-- How a ping ended. -/
structure Ping where
  success : Bool
  latencyMillis : Double
  error : Option String

/-- Sends a ping and measures how long it takes. -/
def ping (apiKey : String) (client : Client) : Online Ping := do
  let start := (← getThe Link).world.stopwatch
  let success ← sendNew apiKey Gate.pingType (.obj (pingProperties client)) none
  let stop := (← getThe Link).world.stopwatch
  return ⟨success, (stop.sub start).mul (.ofInt 1000),
    if success then none else some "Ping was not accepted"⟩

/-! ## In the same process -/

/-- Hands an event to a gate in the same process. -/
def sendLocal (defaultCap : Int) (apiKey : String) (e : ReadyEvent) : Gate.Program Bool := do
  match ← (Gate.ingest defaultCap (some ("Bearer " ++ apiKey)) (.value (.obj e.body))).run with
  | .ok result => return result.accepted
  | .error _ => return false

end Delivery

end Telemetry
