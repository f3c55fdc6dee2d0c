import Telemetry.Event.Basic
import Telemetry.Json.Display
import Telemetry.Time.Iso

/-!
# Building events

How the record of a unit of work is made of what a caller sends. Nothing that a caller sends makes
this fail: what cannot be used is left out or replaced by a default.
-/

namespace Telemetry.Event

/-! ## Parts of what a caller sends -/

/-- The names under which a caller may send a status code, in order of preference. -/
def statusNames : List String :=
  ["status_code", "statusCode", "http_status", "httpStatus", "response_code"]

/-- The status code of a value: the integer part of a finite number. -/
def statusOfValue? : Json → Option Int
  | .int i => some i
  | .float x => x.truncate?
  | _ => none

/-- The status code under the first of some names that has a value; what that value is decides. -/
def firstStatus? (properties : Json.Object) : List String → Option Int
  | [] => none
  | name :: more =>
    match Json.get name properties with
    | .null => firstStatus? properties more
    | v => statusOfValue? v

/-- The status code of a unit of work. -/
def statusCode? (properties : Json.Object) : Option Int :=
  firstStatus? properties statusNames

/-- The outcome of a unit of work, if it is a text. -/
def outcome? (properties : Json.Object) : Option String :=
  (Json.get "outcome" properties).str?

/-- The text of an identifier that a caller sent; null, the empty text, arrays and objects are
none. -/
def identifier? (v : Json) : Option String :=
  if v.isNull || v.isText "" || v.isContainer then none else some v.display

/-- The trace id that a caller sent, or else the request id. -/
def callerTraceId? (properties : Json.Object) : Option String :=
  (identifier? (Json.get "trace_id" properties)).or (identifier? (Json.get "request_id" properties))

/-- The time that a value names, a naive one taken as UTC. -/
def readTimestamp? : Json → Option Time.DateTime
  | .str s => if s = "" then none else (Time.Iso.read? s).map (·.withZone)
  | _ => none

/-- A time as a caller may name it: a value of a request, or a time that needs no reading. -/
inductive Stamp
  | value (v : Json)
  | time (t : Time.DateTime)

/-- The time that a caller names, a naive one taken as UTC. -/
def Stamp.time? : Stamp → Option Time.DateTime
  | .value v => readTimestamp? v
  | .time t => some t.withZone

/-- The name of events whose type is missing. -/
def unknownType : String := "unknown"

/-- The type of an event: a text that is not empty. -/
def typeOfValue : Json → String
  | .str s => if s = "" then unknownType else s
  | _ => unknownType

/-- The properties that a caller sent, none unless they are an object. -/
def propertiesOfValue : Json → Json.Object
  | .obj fields => fields
  | _ => []

/-! ## The record -/

/-- What a caller sends. -/
structure Draft where
  eventType : Json
  properties : Json
  timestamp : Json

/-- The record of a draft that arrives at a time, with an event id and a trace id for the case that
the caller sent none. -/
def ofDraft (project id freshTraceId : String) (arrival : Time.DateTime) (draft : Draft) : Event :=
  let properties := propertiesOfValue draft.properties
  { id
    project
    eventType := typeOfValue draft.eventType
    timestamp := (readTimestamp? draft.timestamp).getD arrival
    ingestedAt := arrival
    traceId := (callerTraceId? properties).getD freshTraceId
    payload := properties
    statusCode := statusCode? properties
    outcome := outcome? properties }

/-- Whether the record of a draft takes a fresh trace id. -/
def Draft.needsTraceId (draft : Draft) : Bool :=
  (callerTraceId? (propertiesOfValue draft.properties)).isNone

/-- The record of a draft, with identifiers drawn in order: the event's, then, if it needs one, the
trace's. -/
def build {m : Type → Type} [Monad m] (freshId : m String) (project : String)
    (arrival : Time.DateTime) (draft : Draft) : m Event := do
  let id ← freshId
  let traceId ← if draft.needsTraceId then freshId else pure ""
  pure (ofDraft project id traceId arrival draft)

/-- The record of a draft whose time is named by a stamp. -/
def buildStamped {m : Type → Type} [Monad m] (freshId : m String) (project : String)
    (arrival : Time.DateTime) (eventType properties : Json) (stamp : Stamp) : m Event := do
  let event ← build freshId project arrival ⟨eventType, properties, .null⟩
  pure { event with timestamp := stamp.time?.getD arrival }

end Telemetry.Event
